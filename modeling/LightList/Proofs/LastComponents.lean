/-
This file says which reader a local source is given to: the last component of its path decides, and
nothing else does.

A component begins the path or stands behind a slash. Slashes that follow each other, slashes at the
end and single dots behind a slash are no components.
-/

import LightList.Source

namespace LightList

namespace Path

/-- Nothing but slashes and single dots behind them. -/
inductive IsIdle : List Char → Prop where
  | nil : IsIdle []
  | slash {rest : List Char} : IsIdle rest → IsIdle ('/' :: rest)
  | dot {rest : List Char} : IsIdle rest → IsIdle ('/' :: '.' :: rest)

/-- This is the last component of a path. A single dot is one only if the path begins with it. -/
inductive EndsIn : List Char → List Char → Prop where
  | alone {name idle : List Char} :
      name ≠ [] → '/' ∉ name → IsIdle idle → EndsIn (name ++ idle) name
  | behind {way name idle : List Char} :
      name ≠ [] → name ≠ ['.'] → '/' ∉ name → IsIdle idle →
        EndsIn (way ++ '/' :: (name ++ idle)) name

/-- What follows the last dot is the extension, unless nothing stands before that dot. -/
def HasExtension (name extension : List Char) : Prop :=
  name ≠ ['.', '.'] ∧
    ∃ stem, stem ≠ [] ∧ '.' ∉ extension ∧ name = stem ++ '.' :: extension

/-- Each of the three letters may be of either case. -/
def IsPbf (extension : List Char) : Prop :=
  ∃ first second third, extension = [first, second, third] ∧ (first = 'p' ∨ first = 'P') ∧
    (second = 'b' ∨ second = 'B') ∧ (third = 'f' ∨ third = 'F')

def NamesPbf (name : List Char) : Prop := ∃ extension, HasExtension name extension ∧ IsPbf extension

section Components

/-- A component that is empty or a lone dot names nothing. -/
theorem isNamed_eq_true_iff {component : List Char} :
    isNamed component = true ↔ component ≠ [] ∧ component ≠ ['.'] := by
  simp [isNamed]

/-- What is idle leaves only parts without a name. -/
theorem IsIdle.exists_split {name idle : List Char} (isIdle : IsIdle idle)
    (noSlash : '/' ∉ name) :
    ∃ parts, Text.split '/' (name ++ idle) = name :: parts ∧
      ∀ part ∈ parts, isNamed part = false := by
  induction isIdle generalizing name with
  | nil =>
      refine ⟨[], ?_, nofun⟩
      rw [List.append_nil, Text.split_of_not_mem noSlash]
  | @slash rest _ inductionHypothesis =>
      have noSlashInNil : '/' ∉ ([] : List Char) := List.not_mem_nil
      obtain ⟨parts, split, unnamed⟩ := inductionHypothesis noSlashInNil
      refine ⟨[] :: parts, ?_, List.forall_mem_cons.2 ⟨rfl, unnamed⟩⟩
      change Text.split '/' rest = _ at split
      rw [Text.split_append_cons noSlash, split]
  | @dot rest _ inductionHypothesis =>
      obtain ⟨parts, split, unnamed⟩ := inductionHypothesis (by decide : '/' ∉ ['.'])
      refine ⟨['.'] :: parts, ?_, List.forall_mem_cons.2 ⟨rfl, unnamed⟩⟩
      change Text.split '/' ('.' :: rest) = _ at split
      rw [Text.split_append_cons noSlash, split]

/-- Components that name nothing add only slashes and lone dots. -/
theorem isIdle_of_unnamed {parts : List (List Char)}
    (unnamed : ∀ part ∈ parts, isNamed part = false) :
    IsIdle (parts.flatMap fun part => '/' :: part) := by
  induction parts with
  | nil => exact .nil
  | cons part rest inductionHypothesis =>
      obtain ⟨here, others⟩ := List.forall_mem_cons.1 unnamed
      have further := inductionHypothesis others
      rw [List.flatMap_cons]
      by_cases isEmpty : part = []
      · rw [isEmpty]
        exact .slash further
      · by_cases isDot : part = ['.']
        · rw [isDot]
          exact .dot further
        · rw [isNamed_eq_true_iff.2 ⟨isEmpty, isDot⟩] at here
          cases here

/-- A single dot leads nowhere, but every other last component is the last of those that lead on. -/
theorem getLast?_of_endsIn {path : String} {name : List Char} (ends : EndsIn path.toList name) :
    ((components path).filter isNamed).getLast? = if name = ['.'] then none else some name := by
  rw [components]
  generalize path.toList = characters at ends
  cases ends with
  | @alone _ idle nonempty noSlash isIdle =>
      obtain ⟨parts, split, unnamed⟩ := isIdle.exists_split noSlash
      have noneNamed : parts.filter isNamed = [] := by
        simpa [List.filter_eq_nil_iff] using unnamed
      rw [split]
      by_cases isDot : name = ['.']
      · have unnamedDot : ¬ isNamed name = true := by
          rw [isDot]
          exact Bool.false_ne_true
        rw [List.filter_cons_of_neg unnamedDot, noneNamed, if_pos isDot, List.getLast?_nil]
      · rw [List.filter_cons_of_pos (isNamed_eq_true_iff.2 ⟨nonempty, isDot⟩), noneNamed,
          if_neg isDot, List.getLast?_singleton]
  | @behind way _ idle nonempty notDot noSlash isIdle =>
      obtain ⟨parts, split, unnamed⟩ := isIdle.exists_split noSlash
      have noneNamed : parts.filter isNamed = [] := by
        simpa [List.filter_eq_nil_iff] using unnamed
      rw [Text.split_append, split, List.filter_append,
        List.filter_cons_of_pos (isNamed_eq_true_iff.2 ⟨nonempty, notDot⟩), noneNamed,
        if_neg notDot, List.getLast?_concat]

/-- The last component that names something is what the path ends in. -/
theorem endsIn_of_getLast? {path : String} {name : List Char}
    (found : ((components path).filter isNamed).getLast? = some name) :
    EndsIn path.toList name := by
  obtain ⟨earlier, filtered⟩ := List.getLast?_eq_some_iff.1 found
  obtain ⟨front, back, whole, -, last⟩ := List.filter_eq_append_iff.1 filtered
  obtain ⟨idle, after, rfl, -, named, noneNamed⟩ := List.filter_eq_cons_iff.1 last
  obtain ⟨nonempty, notDot⟩ := isNamed_eq_true_iff.1 named
  have isPart : name ∈ Text.split '/' path.toList := by
    change name ∈ components path
    simp [whole]
  have noSlash : '/' ∉ name := Text.not_mem_of_mem_split isPart
  have isIdle : IsIdle (after.flatMap fun part => '/' :: part) :=
    isIdle_of_unnamed (by simpa [List.filter_eq_nil_iff] using noneNamed)
  rw [← List.append_assoc] at whole
  cases parts : front ++ idle with
  | nil =>
      rw [parts, List.nil_append] at whole
      rw [Text.eq_of_split_eq_cons whole]
      exact .alone nonempty noSlash isIdle
  | cons first more =>
      rw [parts, List.cons_append] at whole
      rw [Text.eq_of_split_eq_cons whole, List.flatMap_append, List.flatMap_cons,
        List.cons_append, ← List.append_assoc]
      exact .behind nonempty notDot noSlash isIdle

/-- A path has no two last components. -/
theorem EndsIn.unique {path : String} {name other : List Char} (ends : EndsIn path.toList name)
    (otherEnds : EndsIn path.toList other) : name = other := by
  have same := (getLast?_of_endsIn ends).symm.trans (getLast?_of_endsIn otherEnds)
  split at same
  · next isDot =>
      split at same
      · next otherDot => rw [isDot, otherDot]
      · cases same
  · split at same
    · cases same
    · exact Option.some.inj same

/-- A path has the name that it ends in, unless that leads to a directory. -/
theorem fileName?_eq_some_iff {path : String} {name : List Char} :
    fileName? path = some name ↔
      EndsIn path.toList name ∧ name ≠ ['.'] ∧ name ≠ ['.', '.'] := by
  rw [fileName?]
  constructor
  · intro found
    split at found
    · cases found
    · next last isLast =>
        split at found
        · cases found
        · next notUp =>
            cases found
            have ends := endsIn_of_getLast? isLast
            refine ⟨ends, ?_, notUp⟩
            intro isDot
            rw [getLast?_of_endsIn ends, if_pos isDot] at isLast
            cases isLast
  · rintro ⟨ends, notDot, notUp⟩
    rw [getLast?_of_endsIn ends, if_neg notDot]
    exact if_neg notUp

end Components

section Extensions

variable {name extension : List Char}

/-- Seen from its end, a name without a dot is passed over. -/
theorem takeWhile_reverse_append (noDot : '.' ∉ extension) (rest : List Char) :
    ((extension.reverse ++ rest).takeWhile fun character => character != '.') =
      extension.reverse ++ rest.takeWhile fun character => character != '.' := by
  apply List.takeWhile_append_of_pos
  intro character member
  rw [bne_iff_ne]
  rintro rfl
  exact noDot (List.mem_reverse.1 member)

/-- A name without a dot has no extension. -/
theorem extensionOf?_of_not_mem (noDot : '.' ∉ name) : extensionOf? name = none := by
  have taken := takeWhile_reverse_append noDot []
  rw [List.takeWhile_nil, List.append_nil] at taken
  rw [extensionOf?, taken, List.drop_length]

/-- The last dot parts the extension from what stands before it. -/
theorem extensionOf?_append (stem : List Char) (noDot : '.' ∉ extension) :
    extensionOf? (stem ++ '.' :: extension) = if stem = [] then none else some extension := by
  have reversed : (stem ++ '.' :: extension).reverse =
      extension.reverse ++ '.' :: stem.reverse := by
    simp
  have taken := takeWhile_reverse_append noDot ('.' :: stem.reverse)
  rw [List.takeWhile_cons_of_neg (by decide), List.append_nil] at taken
  rw [extensionOf?, reversed, taken, List.drop_left, List.reverse_reverse]
  cases before : stem.reverse with
  | nil => rw [if_pos (List.reverse_eq_nil_iff.1 before)]
  | cons last more =>
      have nonempty : stem ≠ [] := by
        rintro rfl
        cases before
      rw [if_neg nonempty]

/-- The extension follows the last dot, which is not the first character. -/
theorem extensionOf?_eq_some_iff :
    extensionOf? name = some extension ↔
      ∃ stem, stem ≠ [] ∧ '.' ∉ extension ∧ name = stem ++ '.' :: extension := by
  constructor
  · intro found
    by_cases dotted : '.' ∈ name
    · obtain ⟨behind, before, same, noDot⟩ :=
        List.eq_append_cons_of_mem (List.mem_reverse.2 dotted)
      have parted : name = before.reverse ++ '.' :: behind.reverse := by
        rw [← List.reverse_reverse name, same, List.reverse_append, List.reverse_cons,
          List.append_assoc, List.singleton_append]
      have noneBehind : '.' ∉ behind.reverse := fun member => noDot (List.mem_reverse.1 member)
      rw [parted, extensionOf?_append _ noneBehind] at found
      split at found
      · cases found
      · next nonempty =>
          cases found
          exact ⟨before.reverse, nonempty, noneBehind, parted⟩
    · rw [extensionOf?_of_not_mem dotted] at found
      cases found
  · rintro ⟨stem, nonempty, noDot, rfl⟩
    rw [extensionOf?_append stem noDot, if_neg nonempty]

/-- Only a small letter and its capital are made into that letter. -/
theorem toLower_eq_iff {letter character : Char} (isSmall : letter.isLower = true) :
    character.toLower = letter ↔ character = letter ∨ character = letter.toUpper := by
  have isRaised : 'a'.val ≤ letter.val ∧ letter.val ≤ 'z'.val := by
    obtain ⟨low, high⟩ := Bool.and_eq_true_iff.1 isSmall
    exact ⟨of_decide_eq_true low, of_decide_eq_true high⟩
  have range : 97 ≤ letter.toNat ∧ letter.toNat ≤ 122 := isRaised
  have capital : letter.toUpper.toNat = letter.toNat - 32 := by
    change Char.toNat (dite _ _ _) = _
    rw [dif_pos isRaised]
    change (letter.val + _).toNat = _
    rw [UInt32.toNat_add]
    change (letter.toNat + 4294967264) % 4294967296 = _
    omega
  rw [← Char.toNat_inj, ← Char.toNat_inj, ← Char.toNat_inj, capital]
  by_cases isCapital : character.val ≥ 'A'.val ∧ character.val ≤ 'Z'.val
  · have between : 65 ≤ character.toNat ∧ character.toNat ≤ 90 := isCapital
    have lowered : character.toLower.toNat = character.toNat + 32 := by
      change Char.toNat (dite _ _ _) = _
      rw [dif_pos isCapital]
      change (character.val + _).toNat = _
      rw [UInt32.toNat_add]
      change (character.toNat + 32) % 4294967296 = _
      omega
    omega
  · have outside : ¬ (65 ≤ character.toNat ∧ character.toNat ≤ 90) := isCapital
    have same : character.toLower = character := dif_neg isCapital
    rw [same]
    omega

/-- The letters of the extension may be large or small. -/
theorem map_toLower_eq_iff : extension.map Char.toLower = ['p', 'b', 'f'] ↔ IsPbf extension := by
  have isP {character : Char} : character.toLower = 'p' ↔ character = 'p' ∨ character = 'P' :=
    toLower_eq_iff (by decide)
  have isB {character : Char} : character.toLower = 'b' ↔ character = 'b' ∨ character = 'B' :=
    toLower_eq_iff (by decide)
  have isF {character : Char} : character.toLower = 'f' ↔ character = 'f' ∨ character = 'F' :=
    toLower_eq_iff (by decide)
  constructor
  · intro lowered
    obtain ⟨first, _, rfl, firstLowered, lowered⟩ := List.map_eq_cons_iff.1 lowered
    obtain ⟨second, _, rfl, secondLowered, lowered⟩ := List.map_eq_cons_iff.1 lowered
    obtain ⟨third, _, rfl, thirdLowered, lowered⟩ := List.map_eq_cons_iff.1 lowered
    obtain rfl := List.map_eq_nil_iff.1 lowered
    exact ⟨first, second, third, rfl, isP.1 firstLowered, isB.1 secondLowered, isF.1 thirdLowered⟩
  · rintro ⟨first, second, third, rfl, firstSame, secondSame, thirdSame⟩
    simp only [List.map_cons, List.map_nil, isP.2 firstSame, isB.2 secondSame, isF.2 thirdSame]

end Extensions

/-- The binary form is chosen exactly if the path ends in a name with that extension. -/
theorem encoding_eq_pbf_iff (path : String) :
    encoding path = .pbf ↔ ∃ name, EndsIn path.toList name ∧ NamesPbf name := by
  have decided : encoding path = .pbf ↔
      ∃ extension, extension? path = some extension ∧ IsPbf extension := by
    unfold encoding
    cases extension? path with
    | none => simp
    | some extension => simp [map_toLower_eq_iff]
  rw [decided]
  constructor
  · rintro ⟨extension, found, isPbf⟩
    obtain ⟨name, isName, hasExtension⟩ := Option.bind_eq_some_iff.1 found
    obtain ⟨ends, _, notUp⟩ := fileName?_eq_some_iff.1 isName
    exact ⟨name, ends, extension, ⟨notUp, extensionOf?_eq_some_iff.1 hasExtension⟩, isPbf⟩
  · rintro ⟨name, ends, extension, ⟨notUp, stem, nonempty, noDot, parted⟩, isPbf⟩
    have notDot : name ≠ ['.'] := by
      rintro rfl
      cases stem with
      | nil => exact nonempty rfl
      | cons first more => cases more <;> cases parted
    refine ⟨extension, Option.bind_eq_some_iff.2 ⟨name, ?_, ?_⟩, isPbf⟩
    · exact fileName?_eq_some_iff.2 ⟨ends, notDot, notUp⟩
    · exact extensionOf?_eq_some_iff.2 ⟨stem, nonempty, noDot, parted⟩

end Path

namespace Source

/-- The log names the path and the form that was chosen. -/
theorem record_reading (path : String) (encoding : Encoding) :
    (Notice.reading path encoding).record =
      ⟨.debug, "seamark::source", "reading " ++ path ++ (" as " ++ encoding.name)⟩ :=
  congrArg (LogRecord.mk .debug "seamark::source")
    (String.append_assoc : "reading " ++ path ++ " as " ++ encoding.name = _)

/--
A source is read as PBF if the last component of its path has that extension, and otherwise as
Overpass JSON. The log tells which, and there is but one last component.
-/
theorem read_by_lastComponent (tree : FileTree) (path : String) :
    ((∃ name, Path.EndsIn path.toList name ∧ Path.NamesPbf name) →
      (read tree path).notices.map Notice.record =
          [⟨.debug, "seamark::source", "reading " ++ path ++ " as PBF"⟩] ∧
        (read tree path).result = pbf (tree.read path)) ∧
    ((¬ ∃ name, Path.EndsIn path.toList name ∧ Path.NamesPbf name) →
      (read tree path).notices.map Notice.record =
          [⟨.debug, "seamark::source", "reading " ++ path ++ " as Overpass JSON"⟩] ∧
        (read tree path).result = overpass (tree.read path)) ∧
    ∀ name other, Path.EndsIn path.toList name → Path.EndsIn path.toList other → name = other := by
  rw [← Path.encoding_eq_pbf_iff]
  refine ⟨?_, ?_, fun name other ends otherEnds => ends.unique otherEnds⟩
  · intro isPbf
    rw [read, reading, isPbf]
    exact ⟨congrArg (fun record => [record]) (record_reading path .pbf), rfl⟩
  · intro other
    have isOverpass : Path.encoding path = .overpass := by
      cases encoding : Path.encoding path with
      | pbf => exact (other encoding).elim
      | overpass => rfl
    rw [read, reading, isOverpass]
    exact ⟨congrArg (fun record => [record]) (record_reading path .overpass), rfl⟩

example : Path.encoding "charts.d/lights.osm.PBF//./" = .pbf := by decide

example : Path.encoding "lights.pbf/.pbf" = .overpass := by decide

end Source

end LightList
