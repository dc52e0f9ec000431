import Pageweave.Template.Peg
/-!
# The grammar of templates

Text with `\x7b\x7b expressions \x7d\x7d`, `\x7b% tags %\x7d` and `\x7b# comments #\x7d`. Tags that take arguments
read tightly, so that their blanks are part of the grammar; expressions and bare tags skip blanks. What may stand
inside a block, a loop, a macro or a filter section differs, so each has its own kind of content.
-/
namespace Pageweave.Template

open Peg

inductive Rule where
  -- literals and names
  | int | float | string | boolean | ident | path
  -- operators
  | opOr | opAnd | opNot | opLte | opGte | opLt | opGt | opEq | opIneq
  | opPlus | opMinus | opTimes | opSlash | opModulo
  -- calls
  | kwarg | call | filter | testArg | testArgs | testCall | testNot | test | macroCall
  | param | macroHead
  -- expressions
  | concat | basic | basicFilter | stringFilter | comparisonValue | comparison | membership | logicValue | logic
  | array | arrayFilter | stringArray
  -- delimiters
  | variableStart | variableEnd | tagStart | tagEnd | commentStart | commentEnd
  -- tags
  | ignoreMissing | includeTag | commentText | commentTag | blockTag | macroTag | ifTag | elifTag | elseTag | forTag
  | filterTag | setTag | setGlobalTag | endblockTag | endmacroTag | endifTag | endforTag | endfilterTag
  | breakTag | continueTag | superTag | extendsTag | importTag | variableTag | rawTag | endrawTag
  -- content
  | rawText | raw | text | loopIn | sectionIn | block | macroDefinition | eoi | template
  | content | blockContent | loopContent | macroContent | sectionContent
  | contentIf | blockIf | loopIf | macroIf | sectionIf
  deriving DecidableEq

namespace Rule

abbrev Pat := Pattern Rule

private abbrev r (x : Rule) : Pat := .rule x
private abbrev lit (s : String) : Pat := Pattern.lit s
private abbrev all (ps : List Pat) : Pat := Pattern.all ps
private abbrev oneOf (ps : List Pat) : Pat := Pattern.oneOf ps

def space : Pat := oneOf [lit " ", lit "\t", lit "\r", lit "\n"]
def spaces : Pat := .star space
def spaces1 : Pat := Pattern.plus space
def digit : Pat := .range '0' '9'
def digit1 : Pat := .range '1' '9'
def letter : Pat := oneOf [.range 'a' 'z', .range 'A' 'Z', lit "_"]
def wordChar : Pat := oneOf [.range 'a' 'z', .range 'A' 'Z', lit "_", digit]

/-- Anything between two marks of one kind. -/
def quoted (mark : String) : Pat := all [lit mark, .star (Pattern.upTo (lit mark)), lit mark]

/-- Items with commas between them. -/
def commas (item : Pat) : Pat := .seq item (.star (.seq (lit ",") item))

def basicOp : Pat := oneOf [r opPlus, r opMinus, r opTimes, r opSlash, r opModulo]
def comparisonOp : Pat := oneOf [r opLte, r opGte, r opGt, r opLt, r opEq, r opIneq]
def basicValue : Pat :=
  oneOf [r boolean, r testNot, r test, r macroCall, r call, r path, r float, r int]
def basicOperand : Pat := .alt (all [lit "(", r basic, lit ")"]) basicValue
def concatPart : Pat := oneOf [r call, r float, r int, r string, r path]
def kwargs : Pat := .opt (.seq (commas (r kwarg)) (.opt (lit ",")))
def blockStart : Pat := oneOf [r variableStart, r tagStart, r commentStart]

/-- A tag with a keyword and more behind at least one blank. -/
def tag (keyword : String) (more : Pat) : Pat :=
  all [r tagStart, spaces, lit keyword, spaces1, more, spaces, r tagEnd]

def bareTag (keyword : String) : Pat := all [r tagStart, lit keyword, r tagEnd]

def namedEnd (keyword : String) : Pat := all [r tagStart, lit keyword, .opt (r ident), r tagEnd]

def conditional (inner : Rule) : Pat :=
  all [r ifTag, .star (r inner), .star (.seq (r elifTag) (.star (r inner))),
    .opt (.seq (r elseTag) (.star (r inner))), r endifTag]

def value : Pat := .alt (r logic) (r arrayFilter)

/-- Tags that may stand in any content. -/
def common : List Pat :=
  [r includeTag, r commentTag, r setTag, r setGlobalTag, r raw]

def body : Rule → Pat
  | int => .seq (.opt (lit "-")) (.alt (lit "0") (.seq digit1 (.star digit)))
  | float =>
    .seq (.opt (lit "-"))
      (.alt (all [lit "0", lit ".", Pattern.plus digit])
        (all [digit1, .star digit, lit ".", Pattern.plus digit]))
  | string => oneOf [quoted "\"", quoted "'", quoted "`"]
  | boolean => oneOf [lit "true", lit "false", lit "True", lit "False"]
  | ident => .seq letter (.star wordChar)
  | path =>
    all [letter, .star wordChar,
      .star (.alt (.seq (lit ".") (Pattern.plus wordChar))
        (all [lit "[", oneOf [r int, r string, r path], lit "]"]))]
  | opOr => .seq (lit "or") space
  | opAnd => .seq (lit "and") space
  | opNot => .seq (lit "not") space
  | opLte => lit "<="
  | opGte => lit ">="
  | opLt => lit "<"
  | opGt => lit ">"
  | opEq => lit "=="
  | opIneq => lit "!="
  | opPlus => lit "+"
  | opMinus => lit "-"
  | opTimes => lit "*"
  | opSlash => lit "/"
  | opModulo => lit "%"
  | kwarg => all [r ident, lit "=", value]
  | call => all [r ident, lit "(", kwargs, lit ")"]
  | filter => .seq (lit "|") (.alt (r call) (r ident))
  | testArg => value
  | testArgs => commas (r testArg)
  | testCall => .seq (r ident) (.opt (all [lit "(", r testArgs, lit ")"]))
  | testNot => all [r path, lit "is", lit "not", r testCall]
  | test => all [r path, lit "is", r testCall]
  | macroCall => all [r ident, lit "::", r ident, lit "(", kwargs, lit ")"]
  | param => .alt (all [r ident, lit "=", oneOf [r boolean, r string, r float, r int]]) (r ident)
  | macroHead => all [r ident, lit "(", .opt (commas (r param)), lit ")"]
  | concat => .seq concatPart (Pattern.plus (.seq (lit "~") concatPart))
  | basic => .seq basicOperand (.star (.seq basicOp basicOperand))
  | basicFilter => .seq (r basic) (.star (r filter))
  | stringFilter => .seq (.alt (r concat) (r string)) (.star (r filter))
  | comparisonValue => .seq (r basicFilter) (.star (.seq basicOp (r basicFilter)))
  | comparison =>
    let side : Pat := .alt (r stringFilter) (r comparisonValue)
    .seq side (.opt (.seq comparisonOp side))
  | membership =>
    all [.alt (r stringFilter) (r basicFilter), .opt (r opNot), lit "in",
      oneOf [r stringFilter, r arrayFilter, r path]]
  | logicValue =>
    .alt (.seq (.opt (r opNot)) (.alt (r membership) (r comparison))) (all [lit "(", r logic, lit ")"])
  | logic => .seq (r logicValue) (.star (.seq (.alt (r opOr) (r opAnd)) (r logicValue)))
  | array => all [lit "[", .opt (.seq (commas (r logicValue)) (.opt (lit ","))), lit "]"]
  | arrayFilter => .seq (r array) (.star (r filter))
  | stringArray => all [lit "[", .opt (.seq (commas (r string)) (.opt (lit ","))), lit "]"]
  | variableStart => .alt (lit "\x7b\x7b-") (lit "\x7b\x7b")
  | variableEnd => .alt (lit "-\x7d\x7d") (lit "\x7d\x7d")
  | tagStart => .alt (lit "\x7b%-") (lit "\x7b%")
  | tagEnd => .alt (lit "-%\x7d") (lit "%\x7d")
  | commentStart => .alt (lit "\x7b#-") (lit "\x7b#")
  | commentEnd => .alt (lit "-#\x7d") (lit "#\x7d")
  | ignoreMissing => all [lit "ignore", spaces, lit "missing"]
  | includeTag =>
    tag "include" (all [.alt (r string) (r stringArray), spaces, .opt (r ignoreMissing)])
  | commentText => Pattern.plus (Pattern.upTo (r commentEnd))
  | commentTag => all [r commentStart, r commentText, r commentEnd]
  | blockTag => tag "block" (r ident)
  | macroTag => tag "macro" (r macroHead)
  | ifTag => tag "if" (r logic)
  | elifTag => tag "elif" (r logic)
  | elseTag => bareTag "else"
  | forTag =>
    tag "for" (all [r ident, .opt (all [lit ",", spaces, r ident]), spaces1, lit "in", spaces1,
      .alt (r basicFilter) (r arrayFilter)])
  | filterTag => tag "filter" (.alt (r call) (r ident))
  | setTag => tag "set" (all [r ident, spaces, lit "=", spaces, value])
  | setGlobalTag => tag "set_global" (all [r ident, spaces, lit "=", spaces, value])
  | endblockTag => namedEnd "endblock"
  | endmacroTag => namedEnd "endmacro"
  | endifTag => bareTag "endif"
  | endforTag => bareTag "endfor"
  | endfilterTag => bareTag "endfilter"
  | breakTag => bareTag "break"
  | continueTag => bareTag "continue"
  | superTag => all [r variableStart, lit "super()", r variableEnd]
  | extendsTag => all [spaces, tag "extends" (r string), spaces]
  | importTag =>
    all [spaces, tag "import" (all [r string, spaces1, lit "as", spaces1, r ident]), spaces]
  | variableTag => all [r variableStart, value, r variableEnd]
  | rawTag => bareTag "raw"
  | endrawTag => bareTag "endraw"
  | rawText => .star (Pattern.upTo (r endrawTag))
  | raw => all [r rawTag, r rawText, r endrawTag]
  | text => Pattern.plus (Pattern.upTo blockStart)
  | loopIn =>
    all [r forTag, .star (r loopContent), .opt (.seq (r elseTag) (.star (r loopContent))), r endforTag]
  | sectionIn => all [r filterTag, .star (r sectionContent), r endfilterTag]
  | block => all [r blockTag, .star (r blockContent), r endblockTag]
  | macroDefinition => all [r macroTag, .star (r macroContent), r endmacroTag]
  | eoi => .finish
  | template =>
    all [.star (r commentTag),
      .opt (.alt (.seq (r extendsTag) (.star (r importTag)))
        (.seq (Pattern.plus (r importTag)) (.opt (r extendsTag)))),
      .star (.alt (r content) (r macroDefinition)), r eoi]
  | content =>
    oneOf (common ++ [r variableTag, r block, r loopIn, r contentIf, r sectionIn, r text])
  | blockContent =>
    oneOf (common ++ [r superTag, r variableTag, r block, r loopIn, r blockIf, r sectionIn, r text])
  | loopContent =>
    oneOf (common ++ [r variableTag, r loopIn, r loopIf, r breakTag, r continueTag, r sectionIn, r text])
  | macroContent =>
    oneOf (common ++ [r variableTag, r loopIn, r macroIf, r sectionIn, r text])
  | sectionContent =>
    oneOf (common ++ [r superTag, r variableTag, r block, r loopIn, r sectionIf, r sectionIn, r text])
  | contentIf => conditional content
  | blockIf => conditional blockContent
  | loopIf => conditional loopContent
  | macroIf => conditional macroContent
  | sectionIf => conditional sectionContent

def kind : Rule → Kind
  | int | float | string | ident | path | opOr | opAnd | opNot => .token
  | call | testArgs | testCall | param | macroHead | basicFilter | stringFilter | membership | logicValue | logic
  | array | arrayFilter | stringArray => .loose
  | elseTag | endblockTag | endmacroTag | endifTag | endforTag | endfilterTag | breakTag | continueTag | superTag
  | variableTag | rawTag | endrawTag => .loose
  | includeTag | commentText | commentTag | blockTag | macroTag | ifTag | elifTag | forTag | filterTag | setTag
  | setGlobalTag | extendsTag | importTag | rawText | raw | text | loopIn | sectionIn | block | macroDefinition
  | template | content | blockContent | loopContent | macroContent | sectionContent | contentIf | blockIf | loopIf
  | macroIf | sectionIf => .tight
  | _ => .plain

end Rule

def grammar : Grammar Rule := ⟨Rule.kind, Rule.body⟩

end Pageweave.Template
