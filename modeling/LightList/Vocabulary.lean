/-
This file holds the vocabulary of light characters: a set of codes with exact membership.
-/

import LightList.Keyed

namespace LightList

/-- The codes are distinct and ascending, so equal sets of codes are equal vocabularies. -/
structure Vocabulary where
  codes : List String
  ascending : codes.Pairwise (· < ·)
deriving DecidableEq

namespace Vocabulary

def empty : Vocabulary := ⟨[], .nil⟩

/-- A code that is there already stays once. -/
def insert (vocabulary : Vocabulary) (code : String) : Vocabulary where
  codes := Keyed.placeBy id code vocabulary.codes
  ascending := Keyed.ascending_placeBy code vocabulary.ascending

def ofCodes (codes : List String) : Vocabulary := codes.foldl insert empty

def contains (vocabulary : Vocabulary) (value : String) : Bool := vocabulary.codes.contains value

def size (vocabulary : Vocabulary) : Nat := vocabulary.codes.length

def isEmpty (vocabulary : Vocabulary) : Bool := vocabulary.codes.isEmpty

/-- Inserting a code adds it to the members and nothing else. -/
theorem contains_insert (vocabulary : Vocabulary) (code value : String) :
    (vocabulary.insert code).contains value = true ↔
      value = code ∨ vocabulary.contains value = true := by
  have members : value ∈ Keyed.placeBy id code vocabulary.codes ↔
      value = code ∨ value ∈ vocabulary.codes := by
    constructor
    · exact Keyed.mem_placeBy
    · rintro (rfl | member)
      · exact Keyed.mem_placeBy_self
      · rcases Keyed.mem_placeBy_of_mem member with inside | same
        · exact inside
        · rw [show value = code from same]
          exact Keyed.mem_placeBy_self
  simpa [insert, contains] using members

/-- These are the codes of the rhythms in which a light may shine. -/
def lightCharacterCodes : List String :=
  ["F", "Fl", "LFl", "Q", "VQ", "UQ", "Iso", "Oc", "IQ", "IVQ", "IUQ", "Mo", "Al", "FFl", "FlLFl",
    "OcFl", "FLFl", "Al.Oc", "Al.LFl", "Al.Fl", "Al.Gr", "Al.FFl", "Q+LFl", "VQ+LFl", "UQ+LFl"]

def lightCharacters : Vocabulary := ofCodes lightCharacterCodes

end Vocabulary

end LightList
