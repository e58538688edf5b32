/-
# Leaving out optional tags

Every rule of the table that the policy admits makes one pass over the text, in the order of the
table.
-/
import HtmlMinifier.Log
import HtmlMinifier.OptionalTag.Table

namespace HtmlMinifier.OptionalTag

/-- Whether a policy admits a rule. The strict policy keeps the `body` tag before white space,
scripts and styles. -/
def Policy.admits (strict : Bool) : Policy → Bool
  | .always => true
  | .lenientOnly => !strict
  | .strictOnly => strict

/-- The rules that are used, in order. -/
def activeRules (strict : Bool) : List Rule := rules.filter fun rule => rule.policy.admits strict

/-- Let rules pass over a text in order. -/
def applyAll (used : List Rule) (text : Text) : Text :=
  used.foldl (fun current rule => rule.pass current) text

/-- Leave out the optional tags of a written document. -/
def elide (strict : Bool) (text : Text) : Text := applyAll (activeRules strict) text

/-- The number of tags that a pass has taken out. Each of them has exactly one `<`, and nothing
else that is taken out has any. -/
def removals (before after : Text) : Nat := before.count '<' - after.count '<'

/-- What is reported while rules pass over a text in order. -/
def passLog : List Rule → Text → List Log.Entry
  | [], _ => []
  | rule :: later, text =>
      let next := rule.pass text
      let removed := removals text next
      (if removed = 0 then []
        else [⟨.trace, "minify.elide", rule.name ++ ": removed " ++ toString removed⟩]) ++
      passLog later next

end HtmlMinifier.OptionalTag
