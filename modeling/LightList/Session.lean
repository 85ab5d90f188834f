/-
This file runs library operations one after another on a state that lasts between them.

The state holds the elements, the index, the records, the features and the tally. The index is only
rebuilt on request, so it may be older than the elements. A step that fails changes nothing.
-/

import LightList.Audit
import LightList.Overpass
import LightList.Postpass
import LightList.Reduction

namespace LightList

structure Session where
  elements : List Element
  index : PointIndex
  records : List Record
  features : List Feature
  tally : Tally

namespace Session

def start (vocabulary : Vocabulary) : Session := ⟨[], .empty, [], [], .new vocabulary⟩

inductive Input where
  | overpass (bytes : List UInt8)
  | postpass (bytes : List UInt8)
  | direct (elements : List Element)

inductive Step where
  | load (input : Input) (append : Bool)
  | showElements
  | buildIndex
  | clearIndex
  | find (id : ElementId)
  | place
  | reduce
  | audit
  | writeRecords
  | writeFeatures
  | reload (append : Bool)
  | newTally (vocabulary : Vocabulary)
  | classify (value : String)
  | report
  | total

inductive Answer where
  | elementCount (count : Nat)
  | elements (elements : List Element)
  | indexSize (size : Nat) (isEmpty : Bool)
  | position (position : Option Position)
  | positions (positions : List (Option Position))
  | reduction (reduction : Reduction)
  | audit (features : List Feature) (total : Nat)
  | document (text : String)
  | vocabularySize (size : Nat) (isEmpty : Bool)
  | verdict (verdict : Verdict)
  | report (lines : List (String × Nat))
  | total (count : Nat)
  | failed (error : SourceError)

structure Outcome where
  session : Session
  answer : Answer
  notices : List Notice

def Input.read : Input → Reading
  | overpass bytes => ⟨[], (Overpass.read bytes).mapError .json⟩
  | postpass bytes => Postpass.read bytes
  | direct elements => ⟨[], .ok elements⟩

/-- New elements replace the old ones or follow them. -/
def load (session : Session) (input : Input) (append : Bool) : Outcome :=
  let reading := input.read
  match reading.result with
  | .error error => ⟨session, .failed error, reading.notices⟩
  | .ok read =>
      let elements := if append then session.elements ++ read else read
      ⟨{ session with elements }, .elementCount elements.length, reading.notices⟩

def sizeOfIndex (index : PointIndex) : Answer := .indexSize index.size index.isEmpty

def step (session : Session) : Step → Outcome
  | .load input append => session.load input append
  | .showElements => ⟨session, .elements session.elements, []⟩
  | .buildIndex =>
      let index := PointIndex.ofElements session.elements
      ⟨{ session with index }, sizeOfIndex index, []⟩
  | .clearIndex => ⟨{ session with index := .empty }, sizeOfIndex .empty, []⟩
  | .find id => ⟨session, .position (session.index.get? id), []⟩
  | .place =>
      ⟨session, .positions (session.elements.map fun element => element.place? session.index), []⟩
  | .reduce =>
      let reduction := Reduction.ofElements session.elements session.index
      ⟨{ session with records := reduction.records }, .reduction reduction, reduction.notices⟩
  | .audit =>
      let audit := Audit.ofElements session.elements session.index session.tally
      let features := audit.features.toList
      ⟨{ session with features, tally := audit.tally }, .audit features audit.tally.total,
        audit.notices.toList⟩
  | .writeRecords => ⟨session, .document (Record.document session.records), []⟩
  | .writeFeatures => ⟨session, .document (Feature.document session.features), []⟩
  | .reload append =>
      session.load (.overpass (Record.document session.records).toUTF8.toList) append
  | .newTally vocabulary =>
      ⟨{ session with tally := .new vocabulary },
        .vocabularySize vocabulary.size vocabulary.isEmpty, []⟩
  | .classify value =>
      let counted := session.tally.classify value
      ⟨{ session with tally := counted.2 }, .verdict counted.1, []⟩
  | .report => ⟨session, .report session.tally.report, []⟩
  | .total => ⟨session, .total session.tally.total, []⟩

def run (session : Session) : List Step → List Outcome
  | [] => []
  | first :: rest =>
      let outcome := session.step first
      outcome :: outcome.session.run rest

end Session

end LightList
