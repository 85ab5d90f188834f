/-
This file holds why a source cannot be read, and in which words.
-/

import LightList.Element
import LightList.FileFault
import LightList.Json.Fault
import LightList.Pbf.Fault

namespace LightList

inductive SourceError where
  | file (fault : FileFault)
  | json (error : Json.Error)
  | pbf (fault : Pbf.Fault)
  | tags (id : ElementId) (error : Json.Error)

namespace SourceError

/-- This is the message of the fault alone. -/
def inner : SourceError → String
  | file fault => fault.message
  | json error => error.message
  | pbf fault => fault.message
  | tags _ error => error.message

def message : SourceError → String
  | file fault => "I/O error: " ++ fault.message
  | json error => "malformed JSON source: " ++ error.message
  | pbf fault => "PBF read error: " ++ fault.message
  | tags id error =>
      s!"feature {id.toInt}: tags string is not a JSON object: {error.message}"

end SourceError

end LightList
