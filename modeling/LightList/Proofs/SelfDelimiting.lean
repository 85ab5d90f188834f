/-
This file shows that the end of a JSON source can be told from the source itself.

An accepted document ends on a closing bracket with nothing but blanks behind it. More blanks change
nothing, any other byte behind it makes it malformed, and so does a cut before that bracket.
-/

import LightList.Postpass
import LightList.Proofs.Json.Sealing
import LightList.Proofs.Json.ValueLocality
import LightList.Source

namespace LightList

open Json.Reader

namespace Overpass

theorem field_isLocal (draft : Draft) (key : String) : IsLocal (draft.field key) := by
  unfold Draft.field
  split
  · exact (once_isLocal _ _ (variant_isLocal _ _)).bind fun _ => .pure _
  · exact (once_isLocal _ _ int64_isLocal).bind fun _ => .pure _
  · exact (once_isLocal _ _ (orNull_isLocal float_isLocal)).bind fun _ => .pure _
  · exact (once_isLocal _ _ (orNull_isLocal float_isLocal)).bind fun _ => .pure _
  · exact (once_isLocal _ _ (orNull_isLocal (listOf_isLocal int64_isLocal))).bind fun _ => .pure _
  · exact (once_isLocal _ _ (orNull_isLocal tagMap_isLocal)).bind fun _ => .pure _
  · exact unknownField_isLocal.bind fun _ => .pure _

theorem elementOfObject_isLocal : IsLocal elementOfObject := by
  apply (members_isLocal field_isLocal _).bind
  intro draft
  exact (required_isLocal _ _).bind fun kind => (required_isLocal _ _).bind fun id => .pure _

theorem elementOfList_isLocal : IsLocal elementOfList := by
  apply (fieldAt_isLocal _ _ _ (variant_isLocal _ _)).bind
  intro kind
  apply (fieldAt_isLocal _ _ _ int64_isLocal).bind
  intro id
  apply (fieldAt_isLocal _ _ _ (orNull_isLocal float_isLocal)).bind
  intro lat
  apply (fieldAt_isLocal _ _ _ (orNull_isLocal float_isLocal)).bind
  intro lon
  apply (fieldAt_isLocal _ _ _ (orNull_isLocal (listOf_isLocal int64_isLocal))).bind
  intro nodes
  exact (fieldOr_isLocal _ (orNull_isLocal tagMap_isLocal) _).bind fun tags => .pure _

/-- An element is local, as an object and as a list. -/
theorem elementReader_isLocal : IsLocal elementReader :=
  record_isLocal _ elementOfObject_isLocal elementOfList_isLocal

theorem rootReader_isSealed : IsSealed rootReader := by
  have listLocal := listOf_isLocal elementReader_isLocal
  have fieldLocal (elements : Option (List Element)) (key : String) :
      IsLocal (rootField elements key) := by
    unfold rootField
    split
    · exact once_isLocal _ _ listLocal
    · exact unknownField_isLocal.bind fun _ => .pure _
  refine record_isSealed _ ?_ (fieldAt_isLocal _ _ _ listLocal)
  exact (members_isLocal fieldLocal none).bind fun elements => required_isLocal _ _

end Overpass

namespace Postpass

theorem propertiesReader_isLocal : IsLocal propertiesReader := by
  have tagsLocal : IsLocal tagsReader := orNull_isLocal (tree_isLocal _)
  have fieldLocal (draft : PropertiesDraft) (key : String) : IsLocal (draft.field key) := by
    unfold PropertiesDraft.field
    split
    · exact (once_isLocal _ _ int64_isLocal).bind fun _ => .pure _
    · exact (once_isLocal _ _ tagsLocal).bind fun _ => .pure _
    · exact unknownField_isLocal.bind fun _ => .pure _
  refine record_isLocal _ ?_ ?_
  · exact (members_isLocal fieldLocal _).bind fun draft => (required_isLocal _ _).bind fun id => .pure _
  · apply (fieldAt_isLocal _ _ _ int64_isLocal).bind
    intro id
    exact (fieldOr_isLocal _ tagsLocal _).bind fun tags => .pure _

theorem geometryReader_isLocal : IsLocal geometryReader := by
  have fieldLocal (coordinates : Option (List Float)) (key : String) :
      IsLocal (geometryField coordinates key) := by
    unfold geometryField
    split
    · exact once_isLocal _ _ (listOf_isLocal float_isLocal)
    · exact unknownField_isLocal.bind fun _ => .pure _
  refine record_isLocal _ ?_ (fieldOr_isLocal _ (listOf_isLocal float_isLocal) _)
  exact (members_isLocal fieldLocal none).bind fun coordinates => .pure _

/-- A feature is local, as an object and as a list. -/
theorem hitReader_isLocal : IsLocal hitReader := by
  have geometryLocal := orNull_isLocal geometryReader_isLocal
  have fieldLocal (draft : HitDraft) (key : String) : IsLocal (draft.field key) := by
    unfold HitDraft.field
    split
    · exact (once_isLocal _ _ propertiesReader_isLocal).bind fun _ => .pure _
    · exact (once_isLocal _ _ geometryLocal).bind fun _ => .pure _
    · exact unknownField_isLocal.bind fun _ => .pure _
  refine record_isLocal _ ?_ ?_
  · exact (members_isLocal fieldLocal _).bind fun draft =>
      (required_isLocal _ _).bind fun properties => .pure _
  · apply (fieldAt_isLocal _ _ _ propertiesReader_isLocal).bind
    intro properties
    exact (fieldOr_isLocal _ geometryLocal _).bind fun coordinates => .pure _

theorem rootReader_isSealed : IsSealed rootReader := by
  have listLocal := listOf_isLocal hitReader_isLocal
  have fieldLocal (hits : Option (List Hit)) (key : String) : IsLocal (rootField hits key) := by
    unfold rootField
    split
    · exact once_isLocal _ _ listLocal
    · exact unknownField_isLocal.bind fun _ => .pure _
  refine record_isSealed _ ?_ (fieldOr_isLocal _ listLocal _)
  exact (members_isLocal fieldLocal none).bind fun hits => .pure _

end Postpass

/--
This says of a way to read sources that an accepted document bears blanks behind it and nothing else,
and that it ends on a closing bracket before which it cannot be cut.
-/
structure SelfDelimiting (read : List UInt8 → Except SourceError (List Element)) : Prop where
  padded {document : List UInt8} {elements : List Element} (more : List UInt8) :
    read document = .ok elements → more.all Json.isBlank = true →
      read (document ++ more) = .ok elements
  continued {document : List UInt8} {elements : List Element} (more : List UInt8) :
    read document = .ok elements → more.all Json.isBlank = false →
      ∃ error, read (document ++ more) = .error (.json error)
  cut {document : List UInt8} {elements : List Element} : read document = .ok elements →
    ∃ body bracket gap, document = body ++ bracket :: gap ∧
      (bracket = Json.closeBracket ∨ bracket = Json.closeBrace) ∧ gap.all Json.isBlank = true ∧
      ∀ kept, kept <+: body → ∃ error, read kept = .error (.json error)

/-- A source is one document, and what its value means does not depend on its bytes. -/
theorem selfDelimiting_of_isSealed {Value : Type} {reader : Json.Reader Value}
    (isSealed : IsSealed reader) {read : List UInt8 → Except SourceError (List Element)}
    (meaning : Value → Except SourceError (List Element))
    (refused : ∀ {bytes : List UInt8} {error : Json.Error},
      document reader bytes = .error error → read bytes = .error (.json error))
    (accepted : ∀ {bytes : List UInt8} {value : Value},
      document reader bytes = .ok value → read bytes = meaning value) : SelfDelimiting read := by
  have valueOf {bytes : List UInt8} {elements : List Element} (succeeded : read bytes = .ok elements) :
      ∃ value, document reader bytes = .ok value ∧ meaning value = .ok elements := by
    cases outcome : document reader bytes with
    | error error =>
        rw [refused outcome] at succeeded
        cases succeeded
    | ok value =>
        rw [accepted outcome] at succeeded
        exact ⟨value, rfl, succeeded⟩
  constructor
  · intro bytes elements more succeeded blank
    obtain ⟨value, whole, means⟩ := valueOf succeeded
    rw [accepted ((document_append isSealed whole more).1 blank), means]
  · intro bytes elements more succeeded junk
    obtain ⟨value, whole, _⟩ := valueOf succeeded
    obtain ⟨error, failed⟩ := (document_append isSealed whole more).2 junk
    exact ⟨error, refused failed⟩
  · intro bytes elements succeeded
    obtain ⟨value, whole, _⟩ := valueOf succeeded
    obtain ⟨body, bracket, gap, same, isCloser, blank⟩ := document_ends isSealed whole
    refine ⟨body, bracket, gap, same, isCloser, blank, ?_⟩
    intro kept before
    obtain ⟨removed, parts⟩ := before
    cases outcome : document reader kept with
    | error error => exact ⟨error, refused outcome⟩
    | ok other =>
        -- Were the cut document accepted, what was removed would have to be blank.
        have notBlank : (removed ++ bracket :: gap).all Json.isBlank = false := by
          rw [List.all_append, List.all_cons]
          obtain rfl | rfl := isCloser
          · simp [show Json.isBlank Json.closeBracket = false by decide]
          · simp [show Json.isBlank Json.closeBrace = false by decide]
        obtain ⟨error, failed⟩ := (document_append isSealed outcome _).2 notBlank
        rw [← List.append_assoc, parts, ← same, whole] at failed
        cases failed

/-- Both kinds of JSON sources can be told apart from anything longer or shorter. -/
theorem jsonSources_selfDelimiting :
    SelfDelimiting (fun bytes => Source.overpass (.ok bytes)) ∧
      SelfDelimiting fun bytes => (Postpass.read bytes).result := by
  constructor
  · refine selfDelimiting_of_isSealed Overpass.rootReader_isSealed .ok ?_ ?_
    · intro bytes error failed
      simp only [Source.overpass, Overpass.read, failed, Except.mapError]
    · intro bytes elements read
      simp only [Source.overpass, Overpass.read, read, Except.mapError]
  · refine selfDelimiting_of_isSealed Postpass.rootReader_isSealed
      (fun found => (Postpass.place found #[.featuresReturned found.length] #[]).result) ?_ ?_
    · intro bytes error failed
      simp only [Postpass.read, Postpass.hits, failed]
    · intro bytes found read
      simp only [Postpass.read, Postpass.hits, read]

end LightList
