/-
This file holds which expression a pattern stands for.

Settings that stand alone hold from their place up to the end of the group around them, also in the
later branches of a choice.
-/

import LightList.Pattern.Class
import LightList.Pattern.Expression

namespace LightList.Pattern

/-- An expression comes with the settings that hold after it. -/
structure Meaning where
  expression : Expression
  settings : Settings

namespace Literal

/-- Where case does not count, either of two relatives is meant. -/
def meaning (settings : Settings) (value : Literal) : Except Fault Expression :=
  match value.character? settings with
  | .error fault => .error fault
  | .ok character =>
      if !settings.isCaseless || (!settings.isUnicode && !character.isAlpha) then
        .ok (.letter character)
      else if settings.isUnicode then refuse .caseUnknown value.extent
      else .ok (.oneOf fun other => other = character || other = relative character)

end Literal

/-- Without Unicode any byte would be meant, which may be no character. -/
def anyCharMeaning (settings : Settings) (extent : Extent) : Except Fault Expression :=
  if !settings.isUnicode then refuse .invalidUtf8 extent
  else if settings.dotMatchesAll then .ok (.oneOf fun _ => true)
  else if settings.hasReturns then
    .ok (.oneOf fun character => character != '\r' && character != '\n')
  else .ok (.oneOf fun character => character != '\n')

def Assertion.look (settings : Settings) : Assertion → Look
  | lineStart => if settings.hasManyLines then .lineStart settings.hasReturns else .textStart
  | lineEnd => if settings.hasManyLines then .lineEnd settings.hasReturns else .textEnd
  | textStart => .textStart
  | textEnd => .textEnd
  | word edge => if settings.isUnicode then .unicodeWord edge else .word edge

namespace Tree

mutual

def meaning (settings : Settings) : Tree → Except Fault Meaning
  | nothing _ => .ok ⟨.empty, settings⟩
  | .settings switches _ => .ok ⟨.empty, settings.apply switches⟩
  | literal value => do
      let expression ← value.meaning settings
      return ⟨expression, settings⟩
  | anyChar extent => do
      let expression ← anyCharMeaning settings extent
      return ⟨expression, settings⟩
  | assertion kind _ => .ok ⟨.look (kind.look settings), settings⟩
  | named name extent => do
      let chosen ← name.meaning settings extent
      return ⟨.oneOf chosen.holds, settings⟩
  | bracketed isNegated members extent => do
      let inner ← members.meaning settings
      let chosen ← inner.closed settings extent isNegated
      return ⟨.oneOf chosen.holds, settings⟩
  | repetition item least most _ => do
      let inner ← meaning settings item
      return ⟨.ofRepetition inner.expression least most, inner.settings⟩
  | group switches item _ => do
      let inner ← meaning (settings.apply switches) item
      return ⟨inner.expression, settings⟩
  | choice branches _ => do
      let parts ← meanings settings branches
      return ⟨.ofBranches parts.1, parts.2⟩
  | sequence items _ => do
      let parts ← meanings settings items
      return ⟨.ofItems parts.1, parts.2⟩

/-- Every part starts with the settings that hold after the part before it. -/
def meanings (settings : Settings) : List Tree → Except Fault (List Expression × Settings)
  | [] => .ok ([], settings)
  | item :: rest => do
      let first ← meaning settings item
      let others ← meanings first.settings rest
      return (first.expression :: others.1, others.2)

end

end Tree

end LightList.Pattern
