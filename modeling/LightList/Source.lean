/-
This file reads the elements of a local source; the name of the file tells the encoding.

A file is taken as the whole of its bytes, however they come into memory.
-/

import LightList.FileTree
import LightList.Overpass
import LightList.Pbf.Container
import LightList.Reading

namespace LightList.Source

def overpass (content : Except FileFault (List UInt8)) : Except SourceError (List Element) :=
  match content with
  | .error fault => .error (.file fault)
  | .ok bytes => (Overpass.read bytes).mapError .json

/-- A directory can be opened, but then no length can be read from it. -/
def pbf (content : Except FileFault (List UInt8)) : Except SourceError (List Element) :=
  match content with
  | .error .isDirectory => .error (.pbf .headerSizeUnreadable)
  | .error fault => .error (.pbf (.file fault))
  | .ok bytes => (Pbf.read bytes).mapError .pbf

def decode (encoding : Encoding) (content : Except FileFault (List UInt8)) :
    Except SourceError (List Element) :=
  match encoding with
  | .overpass => overpass content
  | .pbf => pbf content

/-- What a file holds, or why it cannot be read, is decoded as its name says. -/
def reading (path : String) (content : Except FileFault (List UInt8)) : Reading :=
  let encoding := Path.encoding path
  ⟨[.reading path encoding], decode encoding content⟩

def read (tree : FileTree) (path : String) : Reading := reading path (tree.read path)

end LightList.Source
