/-
This file holds the outcome of reading a source: what was reported on the way, and the elements or
the reason why there are none.
-/

import LightList.Notice
import LightList.SourceError

namespace LightList

structure Reading where
  notices : List Notice
  result : Except SourceError (List Element)

end LightList
