/-
This file holds lists of keyed entries whose keys are distinct and ascending.
-/

namespace LightList.Keyed

/-- Keys ascend by code point, which is also the order of their UTF-8 bytes. -/
def Ascending {Value : Type} (entries : List (String × Value)) : Prop :=
  entries.Pairwise fun first second => first.1 < second.1

instance {Value : Type} (entries : List (String × Value)) : Decidable (Ascending entries) :=
  inferInstanceAs (Decidable (entries.Pairwise fun first second => first.1 < second.1))

/-- The item goes where its key belongs, and there it replaces the one with the same key. -/
def placeBy {Item : Type} (key : Item → String) (item : Item) : List Item → List Item
  | [] => [item]
  | head :: rest =>
      if key item < key head then item :: head :: rest
      else if key item = key head then item :: rest
      else head :: placeBy key item rest

section Placing

variable {Item : Type} {key : Item → String} {item other : Item} {items : List Item}

/-- Nothing comes in but the new item. -/
theorem mem_placeBy (member : other ∈ placeBy key item items) : other = item ∨ other ∈ items := by
  induction items with
  | nil => exact .inl (List.mem_singleton.1 member)
  | cons head rest inductionHypothesis =>
      unfold placeBy at member
      split at member
      · simpa using member
      · split at member
        · rcases List.mem_cons.1 member with same | inside
          · exact .inl same
          · exact .inr (List.mem_cons_of_mem _ inside)
        · rcases List.mem_cons.1 member with same | inside
          · exact .inr (same ▸ List.mem_cons_self)
          · rcases inductionHypothesis inside with same | older
            · exact .inl same
            · exact .inr (List.mem_cons_of_mem _ older)

/-- The new item is always there. -/
theorem mem_placeBy_self : item ∈ placeBy key item items := by
  induction items with
  | nil => exact List.mem_singleton_self item
  | cons head rest inductionHypothesis =>
      unfold placeBy
      split
      · exact List.mem_cons_self
      · split
        · exact List.mem_cons_self
        · exact List.mem_cons_of_mem _ inductionHypothesis

/-- Nothing goes but an item with the same key. -/
theorem mem_placeBy_of_mem (member : other ∈ items) :
    other ∈ placeBy key item items ∨ key other = key item := by
  induction items with
  | nil => cases member
  | cons head rest inductionHypothesis =>
      unfold placeBy
      split
      · exact .inl (List.mem_cons_of_mem _ member)
      · split
        · next same =>
            rcases List.mem_cons.1 member with rfl | inside
            · exact .inr same.symm
            · exact .inl (List.mem_cons_of_mem _ inside)
        · rcases List.mem_cons.1 member with rfl | inside
          · exact .inl List.mem_cons_self
          · exact (inductionHypothesis inside).imp_left (List.mem_cons_of_mem _)

/-- Items whose keys ascend do so after another one was placed. -/
theorem ascending_placeBy (item : Item)
    (ascending : items.Pairwise fun first second => key first < key second) :
    (placeBy key item items).Pairwise fun first second => key first < key second := by
  induction items with
  | nil => exact List.pairwise_singleton _ _
  | cons head rest inductionHypothesis =>
      have above := (List.pairwise_cons.1 ascending).1
      have tail := (List.pairwise_cons.1 ascending).2
      unfold placeBy
      split
      · next below =>
          refine List.pairwise_cons.2 ⟨?_, ascending⟩
          intro other member
          rcases List.mem_cons.1 member with same | inside
          · exact same ▸ below
          · exact String.lt_trans below (above other inside)
      · next notBelow =>
          split
          · next same =>
              exact List.pairwise_cons.2 ⟨fun other member => same ▸ above other member, tail⟩
          · next different =>
              refine List.pairwise_cons.2 ⟨?_, inductionHypothesis tail⟩
              intro other member
              rcases mem_placeBy member with same | inside
              · exact same ▸ Std.lt_of_le_of_ne (String.not_lt.1 notBelow) (Ne.symm different)
              · exact above other inside

end Placing

/-- The new value replaces the one that the key had before. -/
def place {Value : Type} (key : String) (value : Value) (entries : List (String × Value)) :
    List (String × Value) :=
  placeBy Prod.fst (key, value) entries

/-- Of two entries with the same key, the later one counts. -/
def ofList {Value : Type} (entries : List (String × Value)) : List (String × Value) :=
  entries.foldl (fun placed entry => place entry.1 entry.2 placed) []

/-- In front of an entry, at its place or behind it: there the new value goes. -/
theorem place_cons {Value : Type} (key : String) (value : Value) (entry : String × Value)
    (rest : List (String × Value)) :
    place key value (entry :: rest) =
      if key < entry.1 then (key, value) :: entry :: rest
      else if key = entry.1 then (key, value) :: rest
      else entry :: place key value rest := rfl

/-- The keys still ascend when one more has its place. -/
theorem ascending_place {Value : Type} (key : String) (value : Value)
    {entries : List (String × Value)} (ascending : Ascending entries) :
    Ascending (place key value entries) :=
  ascending_placeBy (key, value) ascending

/-- A run of places keeps the keys ascending. -/
theorem ascending_foldl {Value : Type} (entries placed : List (String × Value))
    (ascending : Ascending placed) :
    Ascending (entries.foldl (fun placed entry => place entry.1 entry.2 placed) placed) := by
  induction entries generalizing placed with
  | nil => exact ascending
  | cons head rest inductionHypothesis =>
      exact inductionHypothesis _ (ascending_place head.1 head.2 ascending)

/-- The keys of a list made from entries ascend, whatever the order of the entries. -/
theorem ascending_ofList {Value : Type} (entries : List (String × Value)) :
    Ascending (ofList entries) :=
  ascending_foldl entries [] .nil

end LightList.Keyed
