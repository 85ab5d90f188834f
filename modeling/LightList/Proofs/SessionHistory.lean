/-
This file says what holds of a session after any history of steps.

The records and the features keep their form, the index is that of the elements from which it was last
built, and the total is the number of stray values since the tally was made. A step that fails changes
nothing, and any other step changes only the parts that it sets.
-/

import LightList.Proofs.AuditFeatures
import LightList.Proofs.ReductionTwice
import LightList.Session

namespace LightList.Session

inductive Part where
  | elements
  | index
  | records
  | features
  | tally
deriving DecidableEq

/-- These are the parts that a step sets when it succeeds. -/
def Step.sets : Step → List Part
  | .load _ _ => [.elements]
  | .reload _ => [.elements]
  | .buildIndex => [.index]
  | .clearIndex => [.index]
  | .reduce => [.records]
  | .audit => [.features, .tally]
  | .newTally _ => [.tally]
  | .classify _ => [.tally]
  | _ => []

def Part.Agrees (first second : Session) : Part → Prop
  | .elements => first.elements = second.elements
  | .index => first.index = second.index
  | .records => first.records = second.records
  | .features => first.features = second.features
  | .tally => first.tally = second.tally

/-- A step that fails changes nothing, and any other changes no part but those that it sets. -/
structure Outcome.Spares (outcome : Outcome) (before : Session) (step : Step) : Prop where
  failed : ∀ error, outcome.answer = .failed error → outcome.session = before
  others : ∀ part, part ∉ step.sets → part.Agrees outcome.session before

/-- This is the session that the steps leave. -/
def after (session : Session) (steps : List Step) : Session :=
  steps.foldl (fun session step => (session.step step).session) session

/-- These are the values that a step hands to the tally: one, or the characters of all elements. -/
def classified (session : Session) : Step → List String
  | .classify value => [value]
  | .audit => session.elements.filterMap fun element => element.tags.light? "character"
  | _ => []

/-- These are the values that steps hand to the tally one after the other. -/
def allClassified (session : Session) : List Step → List String
  | [] => []
  | step :: rest => session.classified step ++ (session.step step).session.allClassified rest

def Step.isNewTally : Step → Bool
  | .newTally _ => true
  | _ => false

/-- The steps leave the part alone. -/
def Part.IsSparedBy (part : Part) (steps : List Step) : Prop := ∀ step ∈ steps, part ∉ step.sets

/-- Sorted records have kept tags and nothing else, and no feature is without a character. -/
structure HasForm (session : Session) : Prop where
  ascending : session.records.Pairwise fun first second => first.id ≤ second.id
  tagged : ∀ record ∈ session.records, record.tags.entries ≠ []
  kept : ∀ record ∈ session.records, ∀ entry ∈ record.tags.entries, Tags.keeps entry.1 = true
  shown : ∀ feature ∈ session.features, feature.character ≠ ""

/--
After a history the index is the one last built, however old it is, and it is empty if it was cleared
since or never built. The total is that of the stray values since the tally was last made.
-/
structure IsCanonical (vocabulary : Vocabulary) (history : List Step) (session : Session) : Prop
    extends HasForm session where
  indexBuilt : ∀ earlier later, history = earlier ++ .buildIndex :: later →
    Part.index.IsSparedBy later →
      session.index = .ofElements ((start vocabulary).after earlier).elements
  indexCleared : ∀ earlier later, history = earlier ++ .clearIndex :: later →
    Part.index.IsSparedBy later → session.index = .empty
  indexUnbuilt : Part.index.IsSparedBy history → session.index = .empty
  totalSince : ∀ earlier newer later, history = earlier ++ .newTally newer :: later →
    (∀ step ∈ later, step.isNewTally = false) →
      session.tally.total =
        (((start vocabulary).after (earlier ++ [.newTally newer])).allClassified later).countP
          fun value => !newer.contains value
  total : (∀ step ∈ history, step.isNewTally = false) →
    session.tally.total =
      ((start vocabulary).allClassified history).countP fun value => !vocabulary.contains value

section Steps

variable (session : Session)

/-- A source that cannot be read leaves the session as it is; otherwise only the elements change. -/
theorem load_cases (input : Input) (append : Bool) :
    (∃ error, session.load input append = ⟨session, .failed error, input.read.notices⟩) ∨
      ∃ elements, session.load input append =
        ⟨{ session with elements }, .elementCount elements.length, input.read.notices⟩ := by
  cases result : input.read.result with
  | error error =>
      left
      apply Exists.intro error
      simp only [load, result]
  | ok read =>
      right
      apply Exists.intro (if append then session.elements ++ read else read)
      simp only [load, result]

/-- Loading changes the elements and nothing else. -/
theorem load_spares (input : Input) (append : Bool) {step : Step}
    (sets : step.sets = [.elements]) : (session.load input append).Spares session step := by
  rcases session.load_cases input append with ⟨error, loaded⟩ | ⟨elements, loaded⟩
  · rw [loaded]
    constructor
    · intro _ _
      rfl
    · intro part _
      cases part <;> rfl
  · rw [loaded]
    constructor
    · intro error isFailed
      cases isFailed
    · intro part other
      rw [sets] at other
      cases part <;> first | rfl | simp at other

/-- A step changes only the parts that it sets. -/
theorem step_spares (step : Step) : (session.step step).Spares session step := by
  cases step with
  | load input append => exact session.load_spares input append rfl
  | reload append => exact session.load_spares _ append rfl
  | _ =>
      constructor
      · intro error isFailed
        cases isFailed
      · intro part other
        cases part <;> first | rfl | simp [Step.sets] at other

/-- Unless it makes a new tally, a step has the tally count the values that it hands over. -/
theorem tally_step {step : Step} (kept : step.isNewTally = false) :
    (session.step step).session.tally = session.tally.run (session.classified step) := by
  have spared (spared : Part.tally ∉ step.sets) :
      (session.step step).session.tally = session.tally :=
    (session.step_spares step).others .tally spared
  cases step with
  | newTally vocabulary => cases kept
  | classify value => rfl
  | audit => exact Audit.tally_ofElements session.elements session.index session.tally
  | _ => exact spared (by simp [Step.sets])

end Steps

namespace HasForm

variable {session : Session}

/-- A session begins in its form. -/
theorem of_start (vocabulary : Vocabulary) : (start vocabulary).HasForm where
  ascending := .nil
  tagged := nofun
  kept := nofun
  shown := nofun

/-- Only the records and the features are looked at. -/
theorem congr (hasForm : session.HasForm) {other : Session}
    (records : other.records = session.records) (features : other.features = session.features) :
    other.HasForm where
  ascending := records ▸ hasForm.ascending
  tagged := records ▸ hasForm.tagged
  kept := records ▸ hasForm.kept
  shown := features ▸ hasForm.shown

/-- Whatever the index is, a reduction gives sorted records with kept tags alone. -/
theorem reduced (hasForm : session.HasForm) : (session.step .reduce).session.HasForm := by
  have areReduced := Reduction.areReduced_records session.elements session.index
  constructor
  · exact areReduced.sorted.imp of_decide_eq_true
  · intro record member
    obtain ⟨entry, isEntry, _⟩ := List.any_eq_true.1 (areReduced.tagged record member)
    exact List.ne_nil_of_mem isEntry
  · intro record member entry isEntry
    have filtered := congrArg Tags.entries (areReduced.kept record member)
    rw [← filtered] at isEntry
    exact (List.mem_filter.1 isEntry).2
  · exact hasForm.shown

/-- A feature has the character of its element, and that is never empty. -/
theorem audited (hasForm : session.HasForm) : (session.step .audit).session.HasForm := by
  refine ⟨hasForm.ascending, hasForm.tagged, hasForm.kept, ?_⟩
  intro feature member
  have listed : feature ∈
      (Audit.ofElements session.elements session.index session.tally).features.toList := member
  rw [Audit.features_ofElements] at listed
  obtain ⟨element, _, found⟩ := List.mem_filterMap.1 listed
  unfold Element.feature? at found
  cases character : element.tags.light? "character" with
  | none =>
      rw [character] at found
      cases found
  | some value =>
      rw [character] at found
      dsimp only at found
      split at found
      · cases found
      · obtain ⟨position, _, rfl⟩ := Option.map_eq_some_iff.1 found
        exact Tags.firstPresent_ne_empty character

theorem step (hasForm : session.HasForm) (step : Step) :
    (session.step step).session.HasForm := by
  have spares := session.step_spares step
  cases step with
  | reduce => exact hasForm.reduced
  | audit => exact hasForm.audited
  | _ =>
      exact hasForm.congr (spares.others .records (by simp [Step.sets]))
        (spares.others .features (by simp [Step.sets]))

theorem after (hasForm : session.HasForm) (steps : List Step) : (session.after steps).HasForm := by
  induction steps generalizing session with
  | nil => exact hasForm
  | cons first rest inductionHypothesis => exact inductionHypothesis (hasForm.step first)

end HasForm

section Runs

variable (session : Session)

/-- A history can be gone through in two parts. -/
theorem after_append (first second : List Step) :
    session.after (first ++ second) = (session.after first).after second :=
  List.foldl_append

/-- The outcome of a step is that of the session which the steps before it leave. -/
theorem run_at (earlier : List Step) (step : Step) (later : List Step) :
    (session.run (earlier ++ step :: later))[earlier.length]? =
      some ((session.after earlier).step step) := by
  induction earlier generalizing session with
  | nil => rfl
  | cons first rest inductionHypothesis => exact inductionHypothesis (session.step first).session

/-- Steps that spare a part leave it as it was. -/
theorem Part.agrees_after {part : Part} {steps : List Step} (spared : part.IsSparedBy steps) :
    part.Agrees (session.after steps) session := by
  induction steps generalizing session with
  | nil => cases part <;> rfl
  | cons first rest inductionHypothesis =>
      have here := (session.step_spares first).others part (spared first List.mem_cons_self)
      have later := inductionHypothesis (session.step first).session fun step member =>
        spared step (List.mem_cons_of_mem first member)
      cases part <;> exact later.trans here

/-- As long as no step makes a new tally, it counts what the steps hand over. -/
theorem tally_after {steps : List Step} (kept : ∀ step ∈ steps, step.isNewTally = false) :
    (session.after steps).tally = session.tally.run (session.allClassified steps) := by
  induction steps generalizing session with
  | nil => rfl
  | cons first rest inductionHypothesis =>
      have here := session.tally_step (kept first List.mem_cons_self)
      have later := inductionHypothesis (session.step first).session fun step member =>
        kept step (List.mem_cons_of_mem first member)
      rw [allClassified, Tally.run, List.foldl_append]
      change ((session.step first).session.after rest).tally =
        (session.tally.run (session.classified first)).run _
      rw [later, here]

/-- A tally that starts with nothing counted ends with the number of stray values. -/
theorem total_after {vocabulary : Vocabulary} (fresh : session.tally = .new vocabulary)
    {steps : List Step} (kept : ∀ step ∈ steps, step.isNewTally = false) :
    (session.after steps).tally.total =
      (session.allClassified steps).countP fun value => !vocabulary.contains value := by
  rw [session.tally_after kept, fresh, Tally.total_run (Tally.consistent_new vocabulary),
    List.countP_eq_length_filter]
  exact Nat.zero_add _

end Runs

/-- After any history the state is what the history alone decides. -/
theorem isCanonical_after (vocabulary : Vocabulary) (history : List Step) :
    ((start vocabulary).after history).IsCanonical vocabulary history where
  toHasForm := (HasForm.of_start vocabulary).after history
  indexBuilt := by
    rintro earlier later rfl spared
    rw [after_append]
    exact Part.agrees_after _ spared
  indexCleared := by
    rintro earlier later rfl spared
    rw [after_append]
    exact Part.agrees_after _ spared
  indexUnbuilt := Part.agrees_after (start vocabulary)
  totalSince := by
    rintro earlier newer later rfl kept
    rw [List.append_cons, after_append]
    exact total_after _ (by rw [after_append]; rfl) kept
  total := total_after (start vocabulary) rfl

/--
After every step of a session its records, features, index and total are as the history demands; a
step that fails has changed nothing, and any other has changed only the parts that it sets.
-/
theorem run_canonical (vocabulary : Vocabulary) (earlier : List Step) (step : Step)
    (later : List Step) :
    let before := (start vocabulary).after earlier
    ∃ outcome, ((start vocabulary).run (earlier ++ step :: later))[earlier.length]? = some outcome ∧
      outcome.session = (start vocabulary).after (earlier ++ [step]) ∧
      outcome.session.IsCanonical vocabulary (earlier ++ [step]) ∧
      outcome.Spares before step := by
  intro before
  have last : (before.step step).session = (start vocabulary).after (earlier ++ [step]) :=
    (after_append _ earlier [step]).symm
  refine ⟨before.step step, run_at _ earlier step later, last, ?_, before.step_spares step⟩
  rw [last]
  exact isCanonical_after vocabulary (earlier ++ [step])

end LightList.Session
