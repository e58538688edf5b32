/-
# What a pass of a rule leaves alone

The tags of the rules begin with `<`, and behind it with a slash or a letter. Whatever begins in
another way is passed over unchanged. The document type is such a text, so every pass leaves it
where it is.
-/
import HtmlMinifier.OptionalTag.Elide
import HtmlMinifier.Proofs.Text.Letters

namespace HtmlMinifier.OptionalTag

/-- A mark that is no letter comes from nothing but itself when a text is folded. -/
theorem fold_eq_iff {mark : Char} (noLetter : mark.isLower = false) (fixed : fold mark = mark)
    (c : Char) : fold c = mark ↔ c = mark := by
  constructor
  · intro same
    unfold fold at same
    split at same
    · subst same
      exact absurd noLetter (by decide)
    · split at same
      · subst same
        exact absurd noLetter (by decide)
      · rcases Text.toLower_eq_self_or_isLower c with stays | isLower
        · rw [← stays, same]
        · rw [same, noLetter] at isLower
          exact absurd isLower Bool.false_ne_true
  · rintro rfl
    exact fixed

/-- A tag is not found where no bracket stands. -/
theorem matchTag?_of_ne_bracket (tags : List Text) {c : Char} (solid : c ≠ '<') (text : Text) :
    matchTag? tags (c :: text) = none := by
  rw [matchTag?, List.findSome?_eq_none_iff]
  intro tag _
  have differs : fold '<' ≠ fold c := by
    intro same
    exact solid ((fold_eq_iff (by decide) (by decide) c).1 same.symm)
  rw [List.cons_append, matchLiteral?, if_neg differs]

/-- A rule removes nothing where no bracket stands. -/
theorem Rule.match?_of_ne_bracket (rule : Rule) {c : Char} (solid : c ≠ '<') (text : Text) :
    rule.match? (c :: text) = none := by
  rw [Rule.match?, matchTag?_of_ne_bracket rule.tags solid]

/-- Where a rule removes nothing, or is not allowed to, its pass goes on behind the next
character. -/
theorem Rule.passAfter_keep {rule : Rule} {reversedBefore : Text} {c : Char} {text : Text}
    (keeps : ∀ taken rest, rule.match? (c :: text) = some (taken, rest) →
      rule.allows reversedBefore rest = false) :
    rule.passAfter reversedBefore (c :: text) = c :: rule.passAfter (c :: reversedBefore)
    text := by
  rw [Rule.passAfter]
  split
  · next taken rest found => rw [keeps taken rest found, if_neg Bool.false_ne_true]
  · rfl

theorem Rule.passAfter_cons {rule : Rule} {c : Char} {text : Text}
    (missing : rule.match? (c :: text) = none) (reversedBefore : Text) :
    rule.passAfter reversedBefore (c :: text) = c :: rule.passAfter (c :: reversedBefore)
    text := by
  apply Rule.passAfter_keep
  intro taken rest found
  rw [missing] at found
  exact absurd found (Option.some_ne_none _).symm

/-- A rule goes on behind the first character of what it finds and may not take out. -/
theorem Rule.passAfter_of_forbidden {rule : Rule} {reversedBefore : Text} {c : Char}
    {text taken rest : Text} (found : rule.match? (c :: text) = some (taken, rest))
    (forbidden : rule.allows reversedBefore rest = false) :
    rule.passAfter reversedBefore (c :: text) = c :: rule.passAfter (c :: reversedBefore)
    text := by
  apply Rule.passAfter_keep
  intro taken' rest' found'
  rw [found] at found'
  cases found'
  exact forbidden

/-- Where a rule is allowed to remove something, its pass goes on behind it. -/
theorem Rule.passAfter_remove {rule : Rule} {reversedBefore : Text} {c : Char}
    {text taken rest : Text} (found : rule.match? (c :: text) = some (taken, rest))
    (allowed : rule.allows reversedBefore rest = true) :
    rule.passAfter reversedBefore (c :: text) =
      rule.passAfter (taken.reverse ++ reversedBefore) rest := by
  rw [Rule.passAfter]
  split
  · next taken' rest' found' =>
      rw [found] at found'
      cases found'
      rw [if_pos allowed]
  · next missing =>
      rw [found] at missing
      exact absurd missing (Option.some_ne_none _)

/-- A pass keeps the first character of a text or goes on behind what its rule finds there. So what
it does to the text follows from what it does to the tail and to what is left behind a find. -/
@[elab_as_elim]
theorem Rule.pass_induction (rule : Rule) {motive : Text → Prop} (nil : motive [])
    (cons : ∀ c text, motive text →
      (∀ taken rest, rule.match? (c :: text) = some (taken, rest) → motive rest) →
      motive (c :: text))
    (text : Text) : motive text := by
  induction length : text.length using Nat.strongRecOn generalizing text with
  | ind n ih =>
      cases text with
      | nil => exact nil
      | cons c text =>
          refine cons c text (ih _ (by simp [← length]) text rfl) fun taken rest found => ?_
          refine ih _ ?_ rest rfl
          rw [← length]
          exact Rule.length_of_match? found

/-- A pass does the same behind texts that its rule does not tell apart, however they go on. -/
theorem Rule.passAfter_congr {rule : Rule} {before other : Text}
    (same : ∀ consumed after,
      rule.allows (consumed ++ before) after = rule.allows (consumed ++ other) after)
    (text : Text) : rule.passAfter before text = rule.passAfter other text := by
  induction text using rule.pass_induction generalizing before other with
  | nil => rw [Rule.passAfter, Rule.passAfter]
  | cons c text tail behind =>
      have further : ∀ taken : Text, ∀ consumed after,
          rule.allows (consumed ++ (taken ++ before)) after =
            rule.allows (consumed ++ (taken ++ other)) after := by
        intro taken consumed after
        rw [← List.append_assoc, ← List.append_assoc, same]
      have goesOn : rule.passAfter (c :: before) text = rule.passAfter (c :: other) text :=
        tail (further [c])
      cases found : rule.match? (c :: text) with
      | none => rw [Rule.passAfter_cons found, Rule.passAfter_cons found, goesOn]
      | some parts =>
          obtain ⟨taken, rest⟩ := parts
          have sees : rule.allows before rest = rule.allows other rest := same [] rest
          cases allowed : rule.allows other rest with
          | false =>
              rw [Rule.passAfter_of_forbidden found (sees.trans allowed),
                Rule.passAfter_of_forbidden found allowed, goesOn]
          | true =>
              rw [Rule.passAfter_remove found (sees.trans allowed),
                Rule.passAfter_remove found allowed]
              exact behind _ _ found (further taken.reverse)

/-- A pass goes over a text without brackets unchanged. -/
theorem Rule.passAfter_append {rule : Rule} {first : Text} (solid : ∀ c ∈ first, c ≠ '<')
    (reversedBefore text : Text) :
    rule.passAfter reversedBefore (first ++ text) =
      first ++ rule.passAfter (first.reverse ++ reversedBefore) text := by
  induction first generalizing reversedBefore with
  | nil => rfl
  | cons c first ih =>
      have missing := rule.match?_of_ne_bracket (solid c List.mem_cons_self) (first ++ text)
      rw [List.cons_append, Rule.passAfter_cons missing,
        ih fun d inside => solid d (List.mem_cons_of_mem c inside)]
      simp

/-- A text without brackets is left alone. -/
theorem Rule.passAfter_of_solid {rule : Rule} {text : Text} (solid : ∀ c ∈ text, c ≠ '<')
    (reversedBefore : Text) : rule.passAfter reversedBefore text = text := by
  have whole := rule.passAfter_append solid reversedBefore []
  rw [List.append_nil, Rule.passAfter, List.append_nil] at whole
  exact whole

/-- Every tag of the table begins with a slash or a letter. -/
theorem head?_of_mem_rules :
    ∀ rule ∈ rules, ∀ tag ∈ rule.tags, tag.head?.any (fun c => c = '/' || c.isLower) = true := by
  decide

/-- No rule of the table removes what begins with `<!`. -/
theorem match?_mark {rule : Rule} (member : rule ∈ rules) (text : Text) :
    rule.match? ('<' :: '!' :: text) = none := by
  have missing : matchTag? rule.tags ('<' :: '!' :: text) = none := by
    rw [matchTag?, List.findSome?_eq_none_iff]
    intro tag inside
    have begins := head?_of_mem_rules rule member tag inside
    cases tag with
    | nil => exact absurd begins (by decide)
    | cons d later =>
        have differs : fold d ≠ fold '!' := by
          intro same
          have mark : d = '!' := (fold_eq_iff (by decide) (by decide) d).1 same
          subst mark
          exact absurd begins (by simp)
        rw [List.cons_append, List.cons_append, matchLiteral?, if_pos rfl, matchLiteral?,
          if_neg differs]
        rfl
  rw [Rule.match?, missing]

/-- A pass of a rule of the table goes over the document type. -/
theorem pass_doctype {rule : Rule} (member : rule ∈ rules) (text : Text) :
    rule.pass (Element.doctype ++ text) =
      Element.doctype ++ rule.passAfter Element.doctype.reverse text := by
  have parts : Element.doctype ++ text = '<' :: '!' :: ("doctype html>".toList ++ text) := rfl
  have solid : ∀ c ∈ '!' :: "doctype html>".toList, c ≠ '<' := by simp
  rw [Rule.pass, parts, Rule.passAfter_cons (match?_mark member _), ← List.cons_append,
    Rule.passAfter_append solid]
  rfl

/-- A pass of a rule of the table leaves the document type where it is. -/
theorem doctype_prefix_pass {rule : Rule} (member : rule ∈ rules) {text : Text}
    (begins : Element.doctype <+: text) : Element.doctype <+: rule.pass text := by
  obtain ⟨later, rfl⟩ := begins
  rw [pass_doctype member]
  exact List.prefix_append Element.doctype _

/-- The document type stays where it is when the optional tags are left out. -/
theorem doctype_prefix_elide (strict : Bool) {text : Text} (begins : Element.doctype <+: text) :
    Element.doctype <+: elide strict text := by
  have all : ∀ rule ∈ activeRules strict, rule ∈ rules := fun rule member =>
    (List.mem_filter.1 member).1
  rw [elide, applyAll]
  generalize activeRules strict = used at all
  induction used generalizing text with
  | nil => exact begins
  | cons rule used ih =>
      apply ih (doctype_prefix_pass (all rule List.mem_cons_self) begins)
      intro later member
      exact all later (List.mem_cons_of_mem rule member)

end HtmlMinifier.OptionalTag
