/-
This file says what every path reads after a file was written.

A write puts its bytes at one place, or as many of them as the disk takes. Paths that lead to this
place read these bytes, all others read what they read before, and no other entry is touched.
-/

import LightList.FileTree
import LightList.Proofs.TagLookup
import Mathlib.Data.List.Induction

namespace LightList.FileTree

/-- This is where a target keeps its bytes, if it is a file or a name that is free for one. -/
def Target.filePlace? : Target → Option (List String)
  | .existing place (.file _) => some place
  | .free place false => some place
  | _ => none

/-- This is what is read of a target. -/
def Target.content? : Target → Option (List UInt8)
  | .existing _ (.file bytes) => some bytes
  | .existing _ .nullDevice => some []
  | _ => none

/-- This is the place that a write to the path would fill, unless it could not be opened. -/
def destination? (tree : FileTree) (path : String) : Option (List String) :=
  (tree.target path).toOption.bind Target.filePlace?

/-- What is written to the path is lost on the null device. -/
def IsDiscarded (tree : FileTree) (path : String) : Prop :=
  ∃ place, tree.target path = .ok (.existing place .nullDevice)

/-- What a path reads is what its target holds. -/
theorem toOption_read (tree : FileTree) (path : String) :
    (tree.read path).toOption = (tree.target path).toOption.bind Target.content? := by
  unfold read
  rcases tree.target path with fault | ⟨place, bytes | _ | _⟩ | ⟨place, mustBeDirectory⟩
  · rfl
  · rfl
  · rfl
  · rfl
  · rfl

section Writing

variable {tree : FileTree} {limit? : Option Limit} {path : String} {bytes : List UInt8}

/-- A path that has a destination is written there, as far as the disk goes. -/
theorem write_of_destination? {place : List String} (leads : tree.destination? path = some place) :
    tree.write limit? path bytes = tree.fill limit? place bytes := by
  unfold destination? at leads
  unfold write
  rcases target : tree.target path with fault | ⟨other, old | _ | _⟩ | ⟨other, _ | _⟩ <;>
    rw [target] at leads <;> cases leads <;> rfl

/-- The null device takes everything and stays as it is. -/
theorem write_of_isDiscarded (discarded : tree.IsDiscarded path) :
    tree.write limit? path bytes = ⟨tree, bytes, none⟩ := by
  obtain ⟨place, leads⟩ := discarded
  rw [write, leads]

/-- Any other path cannot be opened, and then nothing happens. -/
theorem exists_write_fault (noPlace : tree.destination? path = none)
    (kept : ¬ tree.IsDiscarded path) :
    ∃ fault, tree.write limit? path bytes = ⟨tree, [], some fault⟩ := by
  unfold destination? at noPlace
  unfold IsDiscarded at kept
  unfold write
  rcases target : tree.target path with fault | ⟨other, old | _ | _⟩ | ⟨other, _ | _⟩
  · exact ⟨fault, rfl⟩
  · rw [target] at noPlace
    cases noPlace
  · exact ⟨_, rfl⟩
  · exact absurd ⟨other, target⟩ kept
  · rw [target] at noPlace
    cases noPlace
  · exact ⟨_, rfl⟩

/-- A path does not lead both to a file and to the null device. -/
theorem IsDiscarded.destination?_eq_none (discarded : tree.IsDiscarded path) :
    tree.destination? path = none := by
  obtain ⟨place, leads⟩ := discarded
  rw [destination?, leads]
  rfl

end Writing

section Entries

variable (tree : FileTree) (place other : List String) (entry : Entry)

/-- Only the entry at the place is replaced. -/
theorem lookup_replaced (entries : List (List String × Entry)) :
    (entries.map fun existing =>
        if existing.1 = place then (existing.1, entry) else existing).lookup other =
      if other = place then (entries.lookup place).map fun _ => entry
      else entries.lookup other := by
  induction entries with
  | nil => simp
  | cons head rest inductionHypothesis =>
      rw [List.map_cons, Keyed.lookup_cons_eq, Keyed.lookup_cons_eq, Keyed.lookup_cons_eq,
        inductionHypothesis]
      by_cases here : head.1 = place
      · simp only [here, if_true]
        split
        · rfl
        · rfl
      · simp only [if_neg here, if_neg (Ne.symm here)]
        by_cases atHead : other = head.1
        · simp [atHead, here]
        · simp [atHead]

/-- What is put is found at its place, and everything else is as it was. -/
theorem lookup_put :
    (tree.put place entry).entries.lookup other =
      if other = place then some entry else tree.entries.lookup other := by
  rw [put]
  split
  · next present =>
      obtain ⟨old, found⟩ := Option.isSome_iff_exists.1 present
      rw [lookup_replaced, found]
      rfl
  · next absent =>
      rw [Option.not_isSome_iff_eq_none] at absent
      rw [List.lookup_append, Keyed.lookup_cons_eq, List.lookup_nil]
      by_cases same : other = place
      · simp [same, absent]
      · simp [same]

/-- Nothing but a file stands at this place. -/
def IsFillable : Prop := ∀ entry, tree.entryAt? place = some entry → ∃ old, entry = .file old

/-- The working directory and the directories above it are no places for a file. -/
theorem IsFillable.away (fillable : IsFillable tree place) :
    place.isPrefixOf tree.home = false := by
  by_contra above
  rw [Bool.not_eq_false] at above
  obtain ⟨old, impossible⟩ := fillable .directory (if_pos above)
  cases impossible

/-- The file stands at its place, and everywhere else is what was there. -/
theorem entryAt?_put (fillable : IsFillable tree place) :
    (tree.put place entry).entryAt? other =
      if other = place then some entry else tree.entryAt? other := by
  have away := fillable.away
  have sameHome : (tree.put place entry).home = tree.home := rfl
  rw [entryAt?, entryAt?, sameHome, lookup_put]
  by_cases same : other = place
  · rw [same, away, if_pos rfl, if_pos rfl]
    rfl
  · rw [if_neg same, if_neg same]

end Entries

/-- A place is reached when it is there and every place on the way to it is a directory. -/
structure IsReached (tree : FileTree) (place : List String) : Prop where
  there : (tree.entryAt? place).isSome = true
  above : ∀ before, before <+: place → before ≠ place → tree.entryAt? before = some .directory

namespace IsReached

variable {tree : FileTree} {place : List String}

/-- The working directory is reached, and so is every directory above it up to the root. -/
theorem ofHome (above : place <+: tree.home) : IsReached tree place := by
  have directory {before : List String} (isPrefix : before <+: tree.home) :
      tree.entryAt? before = some .directory :=
    if_pos (List.isPrefixOf_iff_prefix.2 isPrefix)
  constructor
  · rw [directory above]
    rfl
  · exact fun before isPrefix _ => directory (isPrefix.trans above)

/-- The directory above a place that is reached is reached too. -/
theorem dropLast (reached : IsReached tree place) : IsReached tree place.dropLast := by
  cases place using List.reverseRecOn with
  | nil => exact ofHome (List.nil_prefix)
  | append_singleton shorter last =>
      rw [List.dropLast_concat]
      have proper : shorter ≠ shorter ++ [last] := by simp
      constructor
      · rw [reached.above shorter (List.prefix_append _ _) proper]
        rfl
      · intro before isPrefix different
        refine reached.above before (isPrefix.trans (List.prefix_append _ _)) ?_
        rintro rfl
        exact absurd isPrefix.length_le (by simp)

/-- What is in a directory that is reached is reached too. -/
theorem child (reached : IsReached tree place) (directory : tree.entryAt? place = some .directory)
    {component : String} (there : (tree.entryAt? (place ++ [component])).isSome = true) :
    IsReached tree (place ++ [component]) where
  there := there
  above before isPrefix different := by
    rcases List.prefix_concat_iff.1 isPrefix with same | shorter
    · exact absurd same different
    · by_cases same : before = place
      · rw [same, directory]
      · exact reached.above before shorter same

end IsReached

section Following

variable {tree : FileTree} {place : List String}

/-- From a place that is not there, no step leads anywhere. -/
theorem follow_of_absent {start : List String} (absent : tree.entryAt? start = none)
    (steps : List String) : tree.follow start steps = .error .notFound := by
  cases steps <;> simp [follow, absent]

/-- From anything but a directory only a path that ends there leads anywhere. -/
theorem follow_of_leaf {start : List String} {entry : Entry}
    (found : tree.entryAt? start = some entry) (isLeaf : entry ≠ .directory) {steps : List String}
    (further : steps ≠ []) : tree.follow start steps = .error .notDirectory := by
  cases steps with
  | nil => exact absurd rfl further
  | cons component rest =>
      cases entry with
      | file bytes => simp [follow, found]
      | nullDevice => simp [follow, found]
      | directory => exact absurd rfl isLeaf

/-- A path read its target; after the write it reads the new bytes if it leads to their place. -/
def ReadsAfter (place : List String) (bytes : List UInt8) (before after : Except FileFault Target) :
    Prop :=
  after.toOption.bind Target.content? =
    if before.toOption.bind Target.filePlace? = some place then some bytes
    else before.toOption.bind Target.content?

/-- One name further either the walk goes on in both trees, or the written tree ends it. -/
theorem readsAfter_child (bytes : List UInt8) (fillable : IsFillable tree place)
    {next rest : List String}
    (goesOn : (tree.entryAt? next).isSome = true →
      ReadsAfter place bytes (tree.follow next rest)
        ((tree.put place (.file bytes)).follow next rest)) :
    ReadsAfter place bytes
      (if (tree.entryAt? next).isNone ∧ rest.all String.isEmpty then .ok (.free next !rest.isEmpty)
        else tree.follow next rest)
      (if ((tree.put place (.file bytes)).entryAt? next).isNone ∧ rest.all String.isEmpty then
          .ok (.free next !rest.isEmpty)
        else (tree.put place (.file bytes)).follow next rest) := by
  have written := entryAt?_put tree place next (.file bytes) fillable
  cases found : tree.entryAt? next with
  | some entry =>
      have kept : ((tree.put place (.file bytes)).entryAt? next).isNone = false := by
        rw [written]
        split
        · rfl
        · rw [found]
          rfl
      simpa [kept, found] using goesOn
  | none =>
      by_cases here : next = place
      · subst here
        rw [if_pos rfl] at written
        rw [written]
        cases rest with
        | nil =>
            simp [ReadsAfter, follow, written, Except.toOption, Target.content?, Target.filePlace?]
        | cons further others =>
            rw [follow_of_leaf written nofun (List.cons_ne_nil _ _), follow_of_absent found]
            split
            · simp [ReadsAfter, Except.toOption, Target.content?, Target.filePlace?]
            · simp [ReadsAfter, Except.toOption]
      · rw [if_neg here, found] at written
        rw [written, follow_of_absent written, follow_of_absent found]
        split
        · cases rest with
          | nil => simp [ReadsAfter, here, Except.toOption, Target.content?, Target.filePlace?]
          | cons further others =>
              simp [ReadsAfter, Except.toOption, Target.content?, Target.filePlace?]
        · simp [ReadsAfter, Except.toOption]

/--
The induction follows the steps. Only when they reach the written place does the written tree give
another target, and then either the path ends there or both trees lead nowhere.
-/
theorem readsAfter_follow (bytes : List UInt8) (fillable : IsFillable tree place)
    (steps : List String) {start : List String} (reached : IsReached tree start) :
    ReadsAfter place bytes (tree.follow start steps)
      ((tree.put place (.file bytes)).follow start steps) := by
  have entries (other : List String) := entryAt?_put tree place other (.file bytes) fillable
  induction steps generalizing start with
  | nil =>
      obtain ⟨entry, found⟩ := Option.isSome_iff_exists.1 reached.there
      simp only [ReadsAfter, follow, entries, found]
      by_cases same : start = place
      · rw [same] at found
        obtain ⟨old, rfl⟩ := fillable entry found
        simp [same, Except.toOption, Target.content?, Target.filePlace?]
      · cases entry <;> simp [same, Except.toOption, Target.content?, Target.filePlace?]
  | cons component rest inductionHypothesis =>
      obtain ⟨entry, found⟩ := Option.isSome_iff_exists.1 reached.there
      by_cases isDirectory : entry = .directory
      · rw [isDirectory] at found
        have elsewhere : start ≠ place := by
          rintro rfl
          obtain ⟨old, impossible⟩ := fillable .directory found
          cases impossible
        have kept : (tree.put place (.file bytes)).entryAt? start = some .directory := by
          rw [entries, if_neg elsewhere, found]
        simp only [follow, kept, found]
        split
        · exact inductionHypothesis reached
        · split
          · exact inductionHypothesis reached.dropLast
          · split
            · rfl
            · exact readsAfter_child bytes fillable fun there =>
                inductionHypothesis (reached.child found there)
      · -- Neither tree goes on behind a file, whatever its bytes.
        have isLeaf : ∃ held, (tree.put place (.file bytes)).entryAt? start = some held ∧
            held ≠ .directory := by
          rw [entries, found]
          split
          · exact ⟨.file bytes, rfl, nofun⟩
          · exact ⟨entry, rfl, isDirectory⟩
        obtain ⟨held, stands, isLeaf⟩ := isLeaf
        rw [follow_of_leaf stands isLeaf (List.cons_ne_nil _ _),
          follow_of_leaf found isDirectory (List.cons_ne_nil _ _)]
        rfl

/-- The same holds of whole paths, which begin at the root or at the working directory. -/
theorem readsAfter_target (bytes : List UInt8) (fillable : IsFillable tree place) (path : String) :
    ReadsAfter place bytes (tree.target path) ((tree.put place (.file bytes)).target path) := by
  unfold target
  split
  · rfl
  · split
    · rfl
    · split
      · rfl
      · split
        · exact readsAfter_follow bytes fillable _ (.ofHome List.nil_prefix)
        · exact readsAfter_follow bytes fillable _ (.ofHome (List.prefix_refl tree.home))

/-- A target says what its tree has at its place. -/
def Target.IsOf (tree : FileTree) : Target → Prop
  | .existing place entry => tree.entryAt? place = some entry
  | .free place _ => tree.entryAt? place = none

/-- Whatever the steps lead to is so in the tree. -/
theorem isOf_follow {steps start : List String} {target : Target}
    (leads : tree.follow start steps = .ok target) : target.IsOf tree := by
  induction steps generalizing start with
  | nil =>
      unfold follow at leads
      split at leads
      · next found =>
          cases leads
          exact found
      · cases leads
  | cons component rest inductionHypothesis =>
      unfold follow at leads
      split at leads
      · cases leads
      · cases leads
      · cases leads
      · split at leads
        · exact inductionHypothesis leads
        · split at leads
          · exact inductionHypothesis leads
          · split at leads
            · cases leads
            · dsimp only at leads
              split at leads
              · next isFree =>
                  cases leads
                  exact Option.isNone_iff_eq_none.1 isFree.1
              · exact inductionHypothesis leads

/-- The target of a path is so in the tree. -/
theorem isOf_target {path : String} {target : Target} (leads : tree.target path = .ok target) :
    target.IsOf tree := by
  unfold FileTree.target at leads
  split at leads
  · cases leads
  · split at leads
    · cases leads
    · split at leads
      · cases leads
      · split at leads
        · exact isOf_follow leads
        · exact isOf_follow leads

/-- A destination is free, or it is a file already. -/
theorem isFillable_of_destination? {path : String} (leads : tree.destination? path = some place) :
    IsFillable tree place := by
  intro entry stands
  unfold destination? at leads
  cases found : tree.target path with
  | error fault =>
      rw [found] at leads
      cases leads
  | ok target =>
      have isOf := isOf_target found
      rw [found] at leads
      rcases target with ⟨other, old | _ | _⟩ | ⟨other, _ | _⟩
      · cases leads
        exact ⟨old, Option.some.inj (stands.symm.trans isOf)⟩
      · cases leads
      · cases leads
      · cases leads
        cases stands.symm.trans isOf
      · cases leads

end Following

/--
The tree was written at the path: it reads the bytes there and on every other path to the same
place, it reads on all other paths what it read before, and it has all other entries as before.
-/
structure IsWritten (tree written : FileTree) (path : String) (bytes : List UInt8) : Prop where
  arrived : written.read path = .ok bytes
  reads (other : String) (content : List UInt8) : written.read other = .ok content ↔
    if tree.destination? other = tree.destination? path then content = bytes
    else tree.read other = .ok content
  elsewhere (place : List String) : tree.destination? path ≠ some place →
    written.entryAt? place = tree.entryAt? place

/-- A tree with a file at the destination of a path was written there. -/
theorem isWritten_put {tree : FileTree} {place : List String} {path : String}
    (leads : tree.destination? path = some place) (bytes : List UInt8) :
    tree.IsWritten (tree.put place (.file bytes)) path bytes := by
  have fillable := isFillable_of_destination? leads
  have reads (other : String) (content : List UInt8) :
      (tree.put place (.file bytes)).read other = .ok content ↔
        if tree.destination? other = tree.destination? path then content = bytes
        else tree.read other = .ok content := by
    have toOption {result : Except FileFault (List UInt8)} :
        result = .ok content ↔ result.toOption = some content := by
      cases result <;> simp [Except.toOption]
    rw [toOption, toOption, toOption_read, toOption_read,
      readsAfter_target bytes fillable other, leads]
    change (if tree.destination? other = some place then _ else _) = _ ↔ _
    split
    · rw [Option.some.injEq, eq_comm]
    · rfl
  constructor
  · exact (reads path bytes).2 (by rw [if_pos rfl])
  · exact reads
  · intro other different
    rw [entryAt?_put tree place other _ fillable, if_neg]
    rintro rfl
    exact different leads

/-- A write ends in one of three ways. -/
inductive WriteEnds (tree : FileTree) (limit? : Option Limit) (path : String)
    (bytes : List UInt8) (attempt : Attempt) : Prop where
  /-- The path cannot be opened, and nothing happens. -/
  | closed (same : attempt.files = tree) (refused : attempt.fault?.isSome)
      (noPlace : tree.destination? path = none) (kept : ¬ tree.IsDiscarded path)
  /-- The null device takes everything. -/
  | discarded (same : attempt.files = tree) (accepted : attempt.fault? = none)
      (taken : attempt.taken = bytes) (isDiscarded : tree.IsDiscarded path)
  /-- The destination holds what the disk took, which is everything unless there is a fault. -/
  | filled (place : List String) (leads : tree.destination? path = some place)
      (fault : attempt.fault? = Limit.fault? limit? bytes)
      (taken : attempt.taken = Limit.taken limit? bytes)
      (written : tree.IsWritten attempt.files path attempt.taken)

/-- Where the path leads decides how a write ends. -/
theorem writeEnds_write (tree : FileTree) (limit? : Option Limit) (path : String)
    (bytes : List UInt8) :
    tree.WriteEnds limit? path bytes (tree.write limit? path bytes) := by
  cases leads : tree.destination? path with
  | some place =>
      rw [write_of_destination? leads]
      exact .filled place leads rfl rfl (isWritten_put leads _)
  | none =>
      by_cases discarded : tree.IsDiscarded path
      · rw [write_of_isDiscarded discarded]
        exact .discarded rfl rfl rfl discarded
      · obtain ⟨fault, wrote⟩ := exists_write_fault leads discarded
        rw [wrote]
        exact .closed rfl rfl leads discarded

end LightList.FileTree
