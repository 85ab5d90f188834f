/-
This file audits the light characters of an extract against a vocabulary.

Every character outside the vocabulary is tallied. The placeable elements that carry one become
features in the order of the extract; the others are only reported.
-/

import LightList.Attribute
import LightList.Feature
import LightList.Notice
import LightList.Placement
import LightList.Tally

namespace LightList

structure Audit where
  features : Array Feature
  notices : Array Notice
  tally : Tally

def Element.feature (element : Element) (position : Position) (character : String) : Feature :=
  { id := element.id
    position := position
    character := character
    name := element.tags.name?
    sequence := element.tags.light? "sequence"
    period := element.tags.light? "period"
    group := element.tags.light? "group" }

namespace Audit

def start (tally : Tally) : Audit := ⟨#[], #[], tally⟩

/-- The tally counts before the position is asked for. -/
def visit (index : PointIndex) (audit : Audit) (element : Element) : Audit :=
  match element.tags.light? "character" with
  | none => audit
  | some character =>
      match audit.tally.classify character with
      | (.conforming, tally) => { audit with tally := tally }
      | (.nonConforming _, tally) =>
          match element.place? index with
          | none =>
              { audit with
                notices := audit.notices.push (.characterUnplaced element.id character)
                tally := tally }
          | some position =>
              { audit with
                features := audit.features.push (element.feature position character)
                tally := tally }

def ofElements (elements : List Element) (index : PointIndex) (tally : Tally) : Audit :=
  elements.foldl (visit index) (start tally)

end Audit

end LightList
