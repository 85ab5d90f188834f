/-
This file runs the whole pipeline over one extract: index, reduction and audit.
-/

import LightList.Audit
import LightList.Reduction

namespace LightList

structure Pipeline where
  elements : List Element
  index : PointIndex
  reduction : Reduction
  audit : Audit

namespace Pipeline

def run (elements : List Element) (vocabulary : Vocabulary) : Pipeline :=
  let index := PointIndex.ofElements elements
  { elements := elements
    index := index
    reduction := Reduction.ofElements elements index
    audit := Audit.ofElements elements index (.new vocabulary) }

def reducedText (pipeline : Pipeline) : String := Record.document pipeline.reduction.records

def auditText (pipeline : Pipeline) : String :=
  Feature.document pipeline.audit.features.toList

/-- Reducing again gives records that agree one by one, unless some coordinate is no number. -/
def isRepeatable (pipeline : Pipeline) : Bool :=
  let again := Reduction.recordsOf pipeline.elements pipeline.index
  let records := pipeline.reduction.records
  again.length == records.length &&
    (again.zip records).all fun pair => pair.1.agrees pair.2

/-- The reduction reports before the audit does. -/
def notices (pipeline : Pipeline) : List Notice :=
  pipeline.reduction.notices ++ pipeline.audit.notices.toList

end Pipeline

end LightList
