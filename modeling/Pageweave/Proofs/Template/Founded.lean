import Pageweave.Proofs.Peg.Fuel
import Pageweave.Template.Grammar
/-!
# The grammar of templates is founded

So whatever text it is given, the reader of templates does not run out of fuel.
-/
namespace Pageweave.Template

open Peg

/-- What the reader leaves of a template. -/
abbrev Parse := Peg.Tree Rule

namespace Rule

def mayBeEmpty : Rule → Bool
  | rawText => true
  | eoi => true
  | template => true
  | _ => false

/-- How deep calls nest before a rule has read a character. -/
def rank : Rule → Nat
  | kwarg | call | testCall | testNot | test | macroCall | param | macroHead | arrayFilter => 30
  | concat => 40
  | basic | stringFilter => 50
  | basicFilter => 60
  | comparisonValue | membership => 70
  | comparison => 80
  | logicValue => 90
  | logic => 100
  | testArg => 110
  | testArgs => 120
  | includeTag | commentText | commentTag | blockTag | macroTag | ifTag | elifTag | elseTag | forTag | filterTag | setTag
  | setGlobalTag | endblockTag | endmacroTag | endifTag | endforTag | endfilterTag | breakTag | continueTag | superTag
  | extendsTag | importTag | variableTag | rawTag | endrawTag | text => 30
  | rawText | raw | loopIn | sectionIn | block | macroDefinition | contentIf | blockIf | loopIf | macroIf | sectionIf => 40
  | content | blockContent | loopContent | macroContent | sectionContent => 60
  | template => 80
  | _ => 20

/-- Every rule leaves a node. -/
theorem loud (r : Rule) : grammar.kind r ≠ .silent := by cases r <;> nofun

theorem founded : grammar.Founded mayBeEmpty rank where
  guarded r := by cases r <;> rfl
  covers r := by cases r <;> decide
  rank r := by cases r <;> decide

end Rule

end Pageweave.Template
