/-
# A blank at the end of a document

A blank at the end of a document is cut off, either before the optional tags are left out or
afterwards. It makes no difference which: a rule that looks for the end of the text behind its tag
takes a blank along with the tag, and no other rule sees the blank at all. One thing has to be
watched. A rule that looks for a start tag wants the tag to go on behind its name, so a document
must not end inside a tag.
-/
import HtmlMinifier.Proofs.OptionalTag.Context
import HtmlMinifier.Proofs.OptionalTag.Frame

namespace HtmlMinifier.OptionalTag

/-! ## What a context sees of a final blank -/

/-- A literal without blanks is not completed by one. -/
theorem startsFolded_append_blank {b : Char} (blank : Text.isBlank b = true) {literal : Text}
    (solid : ∀ l ∈ literal, Text.isBlank l = false) (text : Text) :
    Text.startsFolded literal (text ++ [b]) = Text.startsFolded literal text := by
  have mark : b.isLower = false ∧ b.toLower = b := by
    simp only [Text.isBlank, Bool.or_eq_true, decide_eq_true_eq] at blank
    rcases blank with (((rfl | rfl) | rfl) | rfl) | rfl <;> decide
  refine startsFolded_append_cons mark.1 mark.2 (fun l member => ?_) text []
  rintro rfl
  rw [solid l member] at blank
  cases blank

/-- A blank is no part of a name. -/
theorem isNameChar_of_isBlank {b : Char} (blank : Text.isBlank b = true) :
    Token.isNameChar b = false := by
  cases named : Token.isNameChar b with
  | false => rfl
  | true =>
      rw [Token.isBlank_of_isNameChar named] at blank
      cases blank

/-- A tag name ends in front of a blank. -/
theorem tagName_append_blank {b : Char} (blank : Text.isBlank b = true) (text : Text) :
    tagName (text ++ [b]) = tagName text := by
  rw [tagName, tagName]
  induction text with
  | nil =>
      rw [List.nil_append, List.takeWhile_cons_of_neg (by simp [isNameChar_of_isBlank blank])]
      rfl
  | cons c text ih => rw [List.cons_append, List.takeWhile_cons, List.takeWhile_cons, ih]

/-- Whether a context has no blank in it. -/
def Follow.isSolid : Follow → Bool
  | .literal starts => starts.all fun start => start.all fun c => !Text.isBlank c
  | _ => true

/-- Whether a context asks for the name of a start tag. -/
def Follow.asksForName : Follow → Bool
  | .startTag _ => true
  | _ => false

/-- The contexts of the rules have no blanks. -/
theorem isSolid_of_mem_rules : ∀ rule ∈ rules, ∀ follow ∈ rule.followedBy, follow.isSolid =
    true := by
  decide

/-- Whether every bracket that opens in a text has one that closes behind it. -/
def EndsOutsideTags (text : Text) : Prop := ∀ front rest, text = front ++ '<' :: rest → '>' ∈ rest

theorem EndsOutsideTags.suffix {text later : Text} (outside : EndsOutsideTags text)
    (inside : later <:+ text) : EndsOutsideTags later := by
  obtain ⟨earlier, rfl⟩ := inside
  intro front rest parts
  exact outside (earlier ++ front) rest (by rw [parts, List.append_assoc])

/-- A name that is followed by a closing bracket is not all there is. -/
theorem length_tagName_lt {text : Text} (closes : '>' ∈ text) :
    (tagName text).length < text.length := by
  obtain ⟨front, rest, rfl⟩ := List.append_of_mem closes
  have shorter := (List.takeWhile_prefix (l := front) Token.isNameChar).length_le
  rw [tagName_append_bracket, tagName, List.length_append, List.length_cons]
  omega

/-- Behind some text a final blank is not seen by a context. -/
theorem accepts_append_blank {follow : Follow} (solid : follow.isSolid = true) {b : Char}
    (blank : Text.isBlank b = true) {after : Text} (some : after ≠ [])
    (outside : follow.asksForName = true → EndsOutsideTags after) :
    follow.accepts (after ++ [b]) = follow.accepts after := by
  have noSlash : b ≠ '/' := by
    rintro rfl
    cases blank
  cases follow with
  | literal starts =>
      rw [Follow.isSolid, List.all_eq_true] at solid
      rw [Follow.accepts, Follow.accepts, Bool.eq_iff_iff, List.any_eq_true, List.any_eq_true]
      refine exists_congr fun start => and_congr_right fun member => ?_
      have noBlanks : ∀ c ∈ start, Text.isBlank c = false := by simpa using solid start member
      rw [startsFolded_append_blank blank noBlanks]
  | startTag names =>
      obtain ⟨c, rest, rfl⟩ := List.exists_cons_of_ne_nil some
      by_cases bracket : c = '<'
      · rw [bracket] at outside ⊢
        have closes : '>' ∈ rest := outside rfl [] rest rfl
        have longer := length_tagName_lt closes
        have longer' : (tagName rest).length < (rest ++ [b]).length := by
          rw [List.length_append]
          omega
        simp only [Follow.accepts, List.cons_append, tagName_append_blank blank, longer, longer']
      · rw [List.cons_append, Follow.accepts, Follow.accepts]
        · exact fun later same => bracket (List.cons.inj same).1
        · exact fun later same => bracket (List.cons.inj same).1
  | endTagExcept names =>
      obtain ⟨c, rest, rfl⟩ := List.exists_cons_of_ne_nil some
      cases rest with
      | nil =>
          rw [List.singleton_append, Follow.accepts, Follow.accepts]
          · exact fun later same => List.cons_ne_nil _ _ (List.cons.inj same).2.symm
          · exact fun later same => noSlash (List.cons.inj (List.cons.inj same).2).1
      | cons d rest =>
          by_cases endTag : c = '<' ∧ d = '/'
          · obtain ⟨rfl, rfl⟩ := endTag
            simp only [Follow.accepts, List.cons_append, tagName_append_blank blank]
          · rw [List.cons_append, List.cons_append, Follow.accepts, Follow.accepts]
            · exact fun later same =>
                endTag ⟨(List.cons.inj same).1, (List.cons.inj (List.cons.inj same).2).1⟩
            · exact fun later same =>
                endTag ⟨(List.cons.inj same).1, (List.cons.inj (List.cons.inj same).2).1⟩
  | endOfText => simp [Follow.accepts, some]

/-! ## One pass -/

/-- What the rules behind those for the skeleton have in common: they take a blank along, and
exclude nothing from what may follow. -/
theorem plain_of_mem_contentRules : ∀ rule ∈ contentRules,
    rule.trailingBlank = true ∧ rule.notFollowedBy = [] := by
  decide

/-- A blank at the end of some text does not go with a tag in front of the text. -/
theorem takeBlank_append_blank {behind : Text} (some : behind ≠ [])
    (trimmed : Text.endsBlank behind = false) (b : Char) :
    takeBlank (behind ++ [b]) = ((takeBlank behind).1, (takeBlank behind).2 ++ [b]) ∧
      (takeBlank behind).2 ≠ [] := by
  obtain ⟨c, rest, rfl⟩ := List.exists_cons_of_ne_nil some
  rw [List.cons_append, takeBlank, takeBlank]
  cases first : Text.isBlank c with
  | false => simp
  | true =>
      have more : rest ≠ [] := by
        rintro rfl
        rw [← List.nil_append [c], Text.endsBlank_concat, first] at trimmed
        cases trimmed
      simp [more]

/-- What stands behind a tag in front of a run is the run, or it has the bracket in front of the
run in it. -/
theorem behind_of_closed {inner behind front run : Text} {c : Char}
    (whole : inner ++ '>' :: behind = c :: front ++ '>' :: run) (noEnd : '>' ∉ inner) :
    behind = run ∨ ∃ earlier, behind = earlier ++ '>' :: run ∧ earlier.length ≤ front.length := by
  rcases List.append_eq_append_iff.1 whole with ⟨as, front', same⟩ | ⟨as, front', same⟩
  · cases as with
    | nil => exact .inl (List.cons.inj same).2
    | cons d as =>
        refine .inr ⟨as, (List.cons.inj same).2, ?_⟩
        have long := congrArg List.length front'
        rw [List.length_append, List.length_cons, List.length_cons] at long
        omega
  · cases as with
    | nil => exact .inl (List.cons.inj same).2.symm
    | cons d as =>
        exfalso
        apply noEnd
        rw [front', ← (List.cons.inj same).1]
        simp

/-- Without a blank, a closing bracket stands where it stood. -/
theorem exists_takeBlank_closed (earlier run : Text) :
    ∃ left, (takeBlank (earlier ++ '>' :: run)).2 = left ++ '>' :: run ∧
      left.length ≤ earlier.length := by
  cases earlier with
  | nil => exact ⟨[], rfl, Nat.le_refl 0⟩
  | cons d earlier =>
      rw [List.cons_append, takeBlank]
      split
      · exact ⟨earlier, rfl, by simp⟩
      · exact ⟨d :: earlier, rfl, Nat.le_refl _⟩

/-- A text that does not end with a blank nor, for a rule that asks for a name, inside a tag. -/
structure Rule.SeesComplete (rule : Rule) (text : Text) : Prop where
  trimmed : Text.endsBlank text = false
  outside : rule.followedBy.any Follow.asksForName = true → EndsOutsideTags text

theorem Rule.SeesComplete.suffix {rule : Rule} {text later : Text}
    (complete : rule.SeesComplete text)
    (inside : later <:+ text) : rule.SeesComplete later := by
  refine ⟨?_, fun asks => (complete.outside asks).suffix inside⟩
  obtain ⟨earlier, rfl⟩ := inside
  by_cases none : later = []
  · rw [none, Text.endsBlank_nil]
  · rw [← Text.endsBlank_append none, complete.trimmed]

/-- A final blank is taken along with a tag at the end of a text, or it stays where it is behind
the end of the text. -/
def Rule.TakesOrKeeps (rule : Rule) (b : Char) (before text : Text) : Prop :=
  rule.passAfter before (text ++ [b]) = rule.passAfter before text ∨
    (rule.passAfter before (text ++ [b]) = rule.passAfter before text ++ [b] ∧
      (rule.passAfter before text).getLast? = text.getLast?)

/-- Where a pass goes on behind a character, the blank is treated as behind it. -/
theorem Rule.TakesOrKeeps.cons {rule : Rule} {b c : Char} {before text : Text}
    (behind : rule.TakesOrKeeps b (c :: before) text)
    (goesOn : rule.passAfter before (c :: (text ++ [b])) = c :: rule.passAfter (c :: before)
    (text ++ [b]))
    (goesOn' : rule.passAfter before (c :: text) = c :: rule.passAfter (c :: before) text) :
    rule.TakesOrKeeps b before (c :: text) := by
  rw [TakesOrKeeps, List.cons_append, goesOn, goesOn']
  rcases behind with taken | ⟨kept, same⟩
  · exact .inl (by rw [taken])
  · refine .inr ⟨by rw [kept, List.cons_append], ?_⟩
    rw [List.getLast?_cons, List.getLast?_cons, same]

section
variable {rule : Rule} (member : rule ∈ contentRules) {b : Char} (blank : Text.isBlank b = true)
include member blank

/-- Behind some text a final blank is not seen by a rule. -/
theorem allows_append_blank {after : Text} (some : after ≠ [])
    (outside : rule.followedBy.any Follow.asksForName = true → EndsOutsideTags after)
    (before : Text) : rule.allows before (after ++ [b]) = rule.allows before after := by
  have followed : (rule.followedBy.any fun follow => follow.accepts (after ++ [b])) =
      rule.followedBy.any fun follow => follow.accepts after := by
    rw [Bool.eq_iff_iff, List.any_eq_true, List.any_eq_true]
    refine exists_congr fun follow => and_congr_right fun listed => ?_
    have solid := isSolid_of_mem_rules rule (mem_rules_of_mem_contentRules member) follow listed
    rw [accepts_append_blank solid blank some]
    exact fun asks => outside (List.any_eq_true.2 ⟨follow, listed, asks⟩)
  rw [Rule.allows, Rule.allows, (plain_of_mem_contentRules rule member).2, followed]
  rfl

omit blank in
/-- What a rule finds is a tag and the blank behind it. -/
theorem match?_of_mem_contentRules (text : Text) :
    rule.match? text = (matchTag? rule.tags text).map fun found =>
      (found.1 ++ (takeBlank found.2).1, (takeBlank found.2).2) := by
  have along : rule.behind = takeBlank := by
    funext later
    rw [Rule.behind, if_pos (plain_of_mem_contentRules rule member).1]
  rw [Rule.match?_eq, along]

/-- What a rule finds it finds in front of a final blank as well. If that is the last thing of the
text, the blank goes with it. -/
theorem match?_append_blank {c : Char} {text : Text} (complete : rule.SeesComplete (c :: text)) :
    rule.match? (c :: (text ++ [b])) = (rule.match? (c :: text)).map fun found =>
      if found.2 = [] then (found.1 ++ [b], []) else (found.1, found.2 ++ [b]) := by
  have both := matchTag?_append_separator (mem_rules_of_mem_contentRules member)
    (mem_separators_of_isBlank blank) c text []
  rw [List.cons_append] at both
  rw [match?_of_mem_contentRules member, match?_of_mem_contentRules member, both]
  cases found : matchTag? rule.tags (c :: text) with
  | none => rfl
  | some parts =>
      obtain ⟨tag, behind⟩ := parts
      by_cases last : behind = []
      · simp [last, takeBlank, blank]
      · have ofTag : behind <:+ c :: text := ⟨tag, (append_of_matchTag? found).1⟩
        obtain ⟨blanks, more⟩ := takeBlank_append_blank last (complete.suffix ofTag).trimmed b
        simp [blanks, more]

/-- A pass over a text with a final blank takes the blank along with a tag at the end, or it leaves
the end of the text and the blank alone. -/
theorem passAfter_append_blank {text : Text} (complete : rule.SeesComplete text) (before : Text) :
    rule.TakesOrKeeps b before text := by
  induction text using rule.pass_induction generalizing before with
  | nil =>
      have noBracket : ∀ c ∈ [b], c ≠ '<' := by
        intro c inside
        rw [List.mem_singleton.1 inside]
        rintro rfl
        cases blank
      refine .inr ⟨?_, by rw [Rule.passAfter]⟩
      rw [List.nil_append, Rule.passAfter_of_solid noBracket, Rule.passAfter, List.nil_append]
  | cons c text tail behind =>
      have behindFirst := tail (complete.suffix (List.suffix_cons c text)) (c :: before)
      have finds := match?_append_blank member blank complete
      cases found : rule.match? (c :: text) with
      | none =>
          rw [found, Option.map_none] at finds
          exact behindFirst.cons (Rule.passAfter_cons finds before)
            (Rule.passAfter_cons found before)
      | some parts =>
          obtain ⟨taken, rest⟩ := parts
          have inside : rest <:+ c :: text := ⟨taken, (Rule.append_of_match? found).1⟩
          rw [found, Option.map_some] at finds
          by_cases last : rest = []
          · -- The tag is the last thing, and the blank goes with it.
            subst last
            rw [if_pos rfl] at finds
            cases allowed : rule.allows before [] with
            | true =>
                rw [Rule.TakesOrKeeps, List.cons_append, Rule.passAfter_remove finds allowed,
                  Rule.passAfter_remove found allowed, Rule.passAfter, Rule.passAfter]
                exact .inl rfl
            | false =>
                exact behindFirst.cons (Rule.passAfter_of_forbidden finds allowed)
                  (Rule.passAfter_of_forbidden found allowed)
          · rw [if_neg last] at finds
            have same := allows_append_blank member blank last
              (complete.suffix inside).outside before
            cases allowed : rule.allows before rest with
            | true =>
                rw [allowed] at same
                rw [Rule.TakesOrKeeps, List.cons_append, Rule.passAfter_remove finds same,
                  Rule.passAfter_remove found allowed]
                obtain ⟨earlier, whole⟩ := inside
                rw [← whole, List.getLast?_append_of_ne_nil _ last]
                exact behind _ _ found (complete.suffix ⟨earlier, whole⟩) _
            | false =>
                rw [allowed] at same
                exact behindFirst.cons (Rule.passAfter_of_forbidden finds same)
                  (Rule.passAfter_of_forbidden found allowed)

omit blank

/-- A rule that asks for something behind its tag leaves the run at the end of a text alone, and
the bracket in front of it. -/
theorem exists_passAfter_closed (asks : rule.followedBy ≠ []) {run : Text} (more : run ≠ [])
    (trimmed : Text.endsBlank run = false) (solid : ∀ c ∈ run, c ≠ '<') (front before : Text) :
    ∃ kept, rule.passAfter before (front ++ '>' :: run) = kept ++ '>' :: run := by
  have inRules := mem_rules_of_mem_contentRules member
  induction length : front.length using Nat.strongRecOn generalizing front before with
  | ind n ih =>
      cases front with
      | nil =>
          have noBracket : ∀ c ∈ '>' :: run, c ≠ '<' := by
            intro c inside
            rcases List.mem_cons.1 inside with rfl | inRun
            · decide
            · exact solid c inRun
          exact ⟨[], Rule.passAfter_of_solid noBracket before⟩
      | cons c front =>
          obtain ⟨kept, goesOn⟩ := ih front.length (by simp [← length]) front (c :: before) rfl
          have stays : rule.passAfter before (c :: (front ++ '>' :: run)) =
              c :: rule.passAfter (c :: before) (front ++ '>' :: run) →
              ∃ kept, rule.passAfter before (c :: front ++ '>' :: run) = kept ++ '>' :: run := by
            intro same
            exact ⟨c :: kept, by rw [List.cons_append, same, goesOn, List.cons_append]⟩
          cases found : matchTag? rule.tags (c :: (front ++ '>' :: run)) with
          | none =>
              apply stays
              apply Rule.passAfter_cons
              rw [match?_of_mem_contentRules member, found]
              rfl
          | some parts =>
              obtain ⟨tag, behind⟩ := parts
              have finds : rule.match? (c :: (front ++ '>' :: run)) =
                  some (tag ++ (takeBlank behind).1, (takeBlank behind).2) := by
                rw [match?_of_mem_contentRules member, found]
                rfl
              cases allowed : rule.allows before (takeBlank behind).2 with
              | false => exact stays (Rule.passAfter_of_forbidden finds allowed)
              | true =>
                  obtain ⟨inner, rfl, noEnd⟩ := exists_of_matchTag? inRules found
                  have whole := (append_of_matchTag? found).1
                  rw [List.append_assoc, List.singleton_append, ← List.cons_append] at whole
                  rcases behind_of_closed whole noEnd with rfl | ⟨earlier, rfl, shorter⟩
                  · -- The run begins behind the tag, and the rule does not allow that.
                    obtain ⟨d, later, rest⟩ :=
                      List.exists_cons_of_ne_nil (takeBlank_append_blank more trimmed ' ').2
                    have inRun : d ∈ behind := by
                      rw [← append_takeBlank behind, rest]
                      simp
                    rw [rest, allows_text inRules asks (solid d inRun)] at allowed
                    cases allowed
                  · obtain ⟨left, rest, shorter'⟩ := exists_takeBlank_closed earlier run
                    rw [List.cons_append, Rule.passAfter_remove finds allowed, rest]
                    exact ih left.length (by rw [← length, List.length_cons]; omega) left _ rfl

end

/-! ## All passes -/

/-- A text that does not end with a blank nor inside a tag. -/
structure EndsClosed (text : Text) : Prop where
  trimmed : Text.endsBlank text = false
  closed : ∃ front run, text = front ++ '>' :: run ∧ ∀ c ∈ run, c ≠ '<'

theorem EndsClosed.endsOutsideTags {text : Text} (ends : EndsClosed text) :
    EndsOutsideTags text := by
  obtain ⟨front, run, rfl, solid⟩ := ends.closed
  intro before rest parts
  rcases List.append_eq_append_iff.1 parts with ⟨as, _, same⟩ | ⟨as, _, same⟩
  · cases as with
    | nil => cases same
    | cons d as =>
        have inRun : '<' ∈ run := by
          rw [(List.cons.inj same).2]
          simp
        exact absurd rfl (solid '<' inRun)
  · cases as with
    | nil => cases same
    | cons d as =>
        rw [(List.cons.inj same).2]
        simp

/-- Two texts of which the second has a final blank more, behind an end of some kind, unless a rule
has taken it along. -/
def SameUpToBlank (b : Char) (ends : Text → Prop) (short long : Text) : Prop :=
  long = short ∨ (long = short ++ [b] ∧ ends short)

section
variable {b : Char} (blank : Text.isBlank b = true) {short long : Text}
include blank

/-- Once the blank is cut off, the texts are the same. -/
theorem SameUpToBlank.trimEnd_eq {ends : Text → Prop} (same : SameUpToBlank b ends short long) :
    Text.trimEnd long = Text.trimEnd short := by
  rcases same with rfl | ⟨rfl, _⟩
  · rfl
  · exact Text.trimEnd_concat_of_blank blank short

/-- A rule that asks for no name lets no more than the final blank differ. -/
theorem SameUpToBlank.pass {rule : Rule} (member : rule ∈ contentRules)
    (asks : rule.followedBy.any Follow.asksForName = false)
    (same : SameUpToBlank b (fun text => Text.endsBlank text = false) short long) :
    SameUpToBlank b (fun text => Text.endsBlank text = false) (rule.pass short)
    (rule.pass long) := by
  rcases same with rfl | ⟨rfl, trimmed⟩
  · exact .inl rfl
  · have complete : rule.SeesComplete short := ⟨trimmed, fun no => by rw [asks] at no; cases no⟩
    rcases passAfter_append_blank member blank complete [] with taken | ⟨kept, same⟩
    · exact .inl taken
    · refine .inr ⟨kept, ?_⟩
      change Text.endsBlank (rule.passAfter [] short) = false
      rw [Text.endsBlank, same]
      exact trimmed

/-- A rule that asks for something lets no more than the final blank differ, and it does not open
the end of the text. -/
theorem SameUpToBlank.pass_closed {rule : Rule} (member : rule ∈ contentRules)
    (asks : rule.followedBy ≠ []) (same : SameUpToBlank b EndsClosed short long) :
    SameUpToBlank b EndsClosed (rule.pass short) (rule.pass long) := by
  rcases same with rfl | ⟨rfl, ends⟩
  · exact .inl rfl
  · have complete : rule.SeesComplete short := ⟨ends.trimmed, fun _ => ends.endsOutsideTags⟩
    rcases passAfter_append_blank member blank complete [] with taken | ⟨kept, same⟩
    · exact .inl taken
    · refine .inr ⟨kept, by rw [Rule.pass, Text.endsBlank, same]; exact ends.trimmed, ?_⟩
      have trimmed := ends.trimmed
      obtain ⟨front, run, rfl, solid⟩ := ends.closed
      by_cases none : run = []
      · -- The bracket is the last character, and that one stays.
        subst none
        rw [List.getLast?_concat] at same
        obtain ⟨left, whole⟩ := List.getLast?_eq_some_iff.1 same
        exact ⟨left, [], whole, solid⟩
      · have runTrimmed : Text.endsBlank run = false := by
          rw [← trimmed, ← List.singleton_append, ← List.append_assoc, Text.endsBlank_append none]
        obtain ⟨left, whole⟩ := exists_passAfter_closed member asks none runTrimmed solid front []
        exact ⟨left, run, whole, solid⟩

/-- The rules lose nothing but a final blank in a text that does not end inside a tag. -/
theorem trimEnd_applyAll_contentRules (ends : EndsClosed short) :
    Text.trimEnd (applyAll contentRules (short ++ [b])) =
      Text.trimEnd (applyAll contentRules short) := by
  -- The rules up to the first that asks for nothing keep the end closed; no later rule asks for a
  -- name.
  have asking : ∀ rule ∈ contentRules.take 11, rule.followedBy ≠ [] := by decide
  have later : ∀ rule ∈ contentRules.drop 11, rule.followedBy.any Follow.asksForName = false := by
    decide
  have split : ∀ text, applyAll contentRules text =
      applyAll (contentRules.drop 11) (applyAll (contentRules.take 11) text) := by
    intro text
    rw [applyAll, applyAll, applyAll, ← List.foldl_append, List.take_append_drop]
  have first : SameUpToBlank b EndsClosed (applyAll (contentRules.take 11) short)
      (applyAll (contentRules.take 11) (short ++ [b])) := by
    refine applyAll_related (fun rule member _ _ same => ?_) (.inr ⟨rfl, ends⟩)
    exact same.pass_closed blank ((List.take_sublist 11 _).subset member) (asking rule member)
  have trimmed : SameUpToBlank b (fun text => Text.endsBlank text = false)
      (applyAll (contentRules.take 11) short) (applyAll (contentRules.take 11) (short ++ [b])) :=
    first.imp_right fun kept => ⟨kept.1, kept.2.trimmed⟩
  rw [split, split]
  refine SameUpToBlank.trimEnd_eq blank (applyAll_related (fun rule member _ _ same => ?_) trimmed)
  exact same.pass blank ((List.drop_sublist 11 _).subset member) (later rule member)

end

end HtmlMinifier.OptionalTag
