/-
# Rules for leaving out tags

A rule names a tag and the surroundings in which it may be left out of a written document. It works
on the text of the document alone: on what stands right before the tag and right after it. One pass
of a rule goes through the text once, from left to right, and judges every occurrence by the text
that the pass was given, not by what it has already taken out.

Tags are found without regard to letter case in the sense of simple case folding, in which the long
s counts as an `s` and the Kelvin sign as a `k`. Surroundings are compared in ASCII case only.
-/
import HtmlMinifier.Element
import HtmlMinifier.Token.Scan

namespace HtmlMinifier.OptionalTag

/-- What may stand right after a tag that is left out. -/
inductive Follow where
  /-- The text begins with one of these. -/
  | literal (starts : List Text)
  /-- The start tag of one of these elements. -/
  | startTag (names : List Text)
  /-- The end tag of any element but these. -/
  | endTagExcept (names : List Text)
  /-- Nothing at all. -/
  | endOfText
  deriving DecidableEq, Repr

/-- Under which policy for the `body` tag a rule is used. -/
inductive Policy where
  | always
  | lenientOnly
  | strictOnly
  deriving DecidableEq, Repr

/-- A rule for leaving out tags, which are given without their angle brackets. With `trailingBlank`
one blank after the tag goes with it. An empty list of `precededBy` or `followedBy` asks for
nothing. -/
structure Rule where
  name : String
  tags : List Text
  trailingBlank : Bool := true
  precededBy : List Text := []
  notPrecededBy : List Text := []
  followedBy : List Follow := []
  notFollowedBy : List Text := []
  policy : Policy := .always
  deriving DecidableEq, Repr

/-- Case folding of the letters that tags are made of. -/
def fold (c : Char) : Char :=
  if c = '\u017f' then 's' else if c = '\u212a' then 'k' else c.toLower

/-- Split off `literal` at the head of a text, letters compared after folding. The answer is the
text that matched and what follows it. -/
def matchLiteral? : (literal text : Text) → Option (Text × Text)
  | [], text => some ([], text)
  | _ :: _, [] => none
  | l :: literal, c :: text =>
      if fold l = fold c then
        (matchLiteral? literal text).map fun found => (c :: found.1, found.2)
      else none

/-- Split off one of a list of tags at the head of a text. -/
def matchTag? (tags : List Text) (text : Text) : Option (Text × Text) :=
  tags.findSome? fun tag => matchLiteral? ('<' :: tag ++ ['>']) text

/-- Split off one blank where there is one. -/
def takeBlank : Text → Text × Text
  | [] => ([], [])
  | c :: text => if Text.isBlank c then ([c], text) else ([], c :: text)

/-- Split off what a rule removes at the head of a text. -/
def Rule.match? (rule : Rule) (text : Text) : Option (Text × Text) :=
  match matchTag? rule.tags text with
  | none => none
  | some (tag, rest) =>
      if rule.trailingBlank then some (tag ++ (takeBlank rest).1, (takeBlank rest).2)
      else some (tag, rest)

/-- The tag name at the head of a text. -/
def tagName (text : Text) : Text := text.takeWhile Token.isNameChar

/-- Whether what follows a tag is as the rule asks. A start tag has to go on after its name. -/
def Follow.accepts (follow : Follow) (after : Text) : Bool :=
  match follow with
  | .literal starts => starts.any fun start => Text.startsFolded start after
  | .startTag names =>
      match after with
      | '<' :: rest =>
          tagName rest ≠ [] && (tagName rest).length < rest.length &&
            names.contains (Text.lower (tagName rest))
      | _ => false
  | .endTagExcept names =>
      match after with
      | '<' :: '/' :: rest => tagName rest ≠ [] && !names.contains (Text.lower (tagName rest))
      | _ => false
  | .endOfText => after = []

/-- Whether a text that is given backwards ends with `literal`, in ASCII case. -/
def endsFolded (literal reversed : Text) : Bool := Text.startsFolded literal.reverse reversed

/-- Whether a rule allows its tag to be left out between these texts. The text before the tag is
given backwards. -/
def Rule.allows (rule : Rule) (reversedBefore after : Text) : Bool :=
  (rule.precededBy = [] || rule.precededBy.any fun literal => endsFolded literal reversedBefore) &&
    !(rule.notPrecededBy.any fun literal => endsFolded literal reversedBefore) &&
    !(rule.notFollowedBy.any fun literal => Text.startsFolded literal after) &&
    (rule.followedBy = [] || rule.followedBy.any fun follow => follow.accepts after)

theorem append_of_matchLiteral? {literal text taken rest : Text}
    (found : matchLiteral? literal text = some (taken, rest)) :
    taken ++ rest = text ∧ taken.length = literal.length := by
  induction literal generalizing text taken with
  | nil => simp_all [matchLiteral?]
  | cons l literal ih =>
      cases text with
      | nil => simp [matchLiteral?] at found
      | cons c text =>
          simp only [matchLiteral?] at found
          split at found
          · simp only [Option.map_eq_some_iff, Prod.mk.injEq, Prod.exists] at found
            obtain ⟨inner, after, deeper, rfl, rfl⟩ := found
            have further := ih deeper
            simp [further.1, further.2]
          · simp at found

/-- A tag that is split off is not empty, and with what follows it makes up the text. -/
theorem append_of_matchTag? {tags : List Text} {text taken rest : Text}
    (found : matchTag? tags text = some (taken, rest)) : taken ++ rest = text ∧ taken ≠ [] := by
  obtain ⟨tag, _, matched⟩ := List.exists_of_findSome?_eq_some found
  obtain ⟨whole, long⟩ := append_of_matchLiteral? matched
  exact ⟨whole, by rintro rfl; simp at long⟩

theorem append_takeBlank (text : Text) : (takeBlank text).1 ++ (takeBlank text).2 = text := by
  cases text with
  | nil => rfl
  | cons c text => simp only [takeBlank]; split <;> simp

/-- What a rule splits off is not empty, and with what follows it makes up the text. -/
theorem Rule.append_of_match? {rule : Rule} {text taken rest : Text}
    (found : rule.match? text = some (taken, rest)) : taken ++ rest = text ∧ taken ≠ [] := by
  unfold Rule.match? at found
  split at found
  · simp at found
  · next tag behind matched =>
      obtain ⟨whole, some⟩ := append_of_matchTag? matched
      split at found
      · simp only [Option.some.injEq, Prod.mk.injEq] at found
        obtain ⟨rfl, rfl⟩ := found
        exact ⟨by rw [List.append_assoc, append_takeBlank, whole], by simp [some]⟩
      · simp only [Option.some.injEq, Prod.mk.injEq] at found
        obtain ⟨rfl, rfl⟩ := found
        exact ⟨whole, some⟩

/-- What follows a tag is shorter than what began with it. -/
theorem Rule.length_of_match? {rule : Rule} {text taken rest : Text}
    (found : rule.match? text = some (taken, rest)) : rest.length < text.length := by
  obtain ⟨whole, some⟩ := Rule.append_of_match? found
  have := List.length_pos_iff.2 some
  rw [← whole, List.length_append]
  omega

/-- One pass of a rule over a text, with the text before it given backwards. -/
def Rule.passAfter (rule : Rule) (reversedBefore : Text) : Text → Text
  | [] => []
  | c :: text =>
      match _found : rule.match? (c :: text) with
      | some (taken, rest) =>
          if rule.allows reversedBefore rest then
            rule.passAfter (taken.reverse ++ reversedBefore) rest
          else c :: rule.passAfter (c :: reversedBefore) text
      | none => c :: rule.passAfter (c :: reversedBefore) text
termination_by text => text.length
decreasing_by
  · exact Rule.length_of_match? _found
  · simp
  · simp

/-- One pass of a rule over a whole text. -/
def Rule.pass (rule : Rule) (text : Text) : Text := rule.passAfter [] text

end HtmlMinifier.OptionalTag
