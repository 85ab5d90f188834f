/-
This file holds patterns that are searched for in texts.
-/

import LightList.Pattern.Meaning
import LightList.Pattern.Parser
import LightList.Pattern.Size

namespace LightList

/-- A pattern is held as the expression that it stands for. -/
structure Pattern where
  expression : Pattern.Expression

namespace Pattern

/-- This is why a text is no pattern that can be searched for. -/
inductive Refusal where
  | faulty (fault : Fault) (pattern : List Char)
  | tooLarge
  | asksForUnicodeWords

def Refusal.message : Refusal → String
  | faulty fault pattern => fault.text pattern
  | tooLarge => s!"Compiled regex exceeds size limit of {Expression.byteLimit} bytes."
  | asksForUnicodeWords => "error building NFA"

/-- The size is looked at first. -/
def ofExpression (expression : Expression) : Except Refusal Pattern :=
  if expression.isTooLarge then .error .tooLarge
  else if expression.asksForUnicodeWords then .error .asksForUnicodeWords
  else .ok ⟨expression⟩

def ofText (text : String) : Except Refusal Pattern :=
  match Tree.parse text.toList with
  | .error fault => .error (.faulty fault text.toList)
  | .ok tree =>
      match tree.meaning .initial with
      | .error fault => .error (.faulty fault text.toList)
      | .ok meaning => ofExpression meaning.expression

def occursIn (pattern : Pattern) (text : String) : Bool := pattern.expression.occursIn text.toList

end Pattern

end LightList
