import Almanac.Proofs.Cache.Coherence
import Almanac.Proofs.Cron.Acceptance

/-!
# Texts of expressions as keys

An expression is known by its text. The text has the words that were read, with single spaces
between them, so it reads as the expression again. Expressions have one text exactly if they were
read from the same words, whatever the blanks around these were, and then no question about their
fields or their matches tells them apart.
-/

namespace Almanac.Cron.Expression

open Almanac.Text

variable {given other : String} {expression found : Expression}

theorem sameText_iff : expression.sameText found = true ↔ expression.text = found.text := beq_iff_eq

theorem text_eq_keyOf (h : ofText given = .ok expression) : expression.text = Cache.keyOf given :=
  text_of_ofText h

theorem length_words_of_ofText (h : ofText given = .ok expression) :
    (words given.toList).length = 5 := by
  rcases ofText_eq_ok_iff.1 h with ⟨_, _, _, _, _, hw, -⟩
  rw [hw]
  rfl

theorem ofText_text (h : ofText given = .ok expression) :
    ofText expression.text = .ok expression := by
  rw [text_eq_keyOf h]
  exact ofText_keyOf_eq_ok_iff.2 h

theorem sameText_iff_words (h : ofText given = .ok expression) (hf : ofText other = .ok found) :
    expression.sameText found = true ↔ words given.toList = words other.toList := by
  rw [sameText_iff, text_eq_keyOf h, text_eq_keyOf hf, Cache.keyOf_eq_keyOf_iff]

theorem eq_of_sameText (h : ofText given = .ok expression) (hf : ofText other = .ok found)
    (hs : expression.sameText found = true) : expression = found := by
  have hread := ofText_text h
  rw [sameText_iff.1 hs, ofText_text hf] at hread
  exact (Except.ok.inj hread).symm

/-- No minute, day, moment or point is matched by one of the expressions and not by the other. -/
structure MatchesLike (expression found : Expression) : Prop where
  allowsDay : ∀ dayOfMonth dayOfWeek,
    expression.allowsDay dayOfMonth dayOfWeek = found.allowsDay dayOfMonth dayOfWeek
  allows : ∀ minute hour dayOfMonth month dayOfWeek,
    expression.allows minute hour dayOfMonth month dayOfWeek =
      found.allows minute hour dayOfMonth month dayOfWeek
  allowsPoint : ∀ point, expression.allowsPoint point = found.allowsPoint point
  firings : ∀ point, expression.firings point = found.firings point

/-- Matching looks at the fields alone, not at the text. -/
theorem matchesLike_of_fields (h : ∀ kind, expression.fieldOf kind = found.fieldOf kind) :
    expression.MatchesLike found := by
  have hminute : expression.minute = found.minute := h .minute
  have hhour : expression.hour = found.hour := h .hour
  have hday : expression.dayOfMonth = found.dayOfMonth := h .dayOfMonth
  have hmonth : expression.month = found.month := h .month
  have hweekday : expression.dayOfWeek = found.dayOfWeek := h .dayOfWeek
  have hallowsDay : expression.allowsDay = found.allowsDay := by
    funext dayOfMonth dayOfWeek
    rw [allowsDay, allowsDay, hday, hweekday]
  have hallows : expression.allows = found.allows := by
    funext minute hour dayOfMonth month dayOfWeek
    rw [allows, allows, hminute, hhour, hmonth, hallowsDay]
  have hfirings : expression.firingsOn = found.firingsOn := by
    funext date
    simp only [firingsOn, minutesOn, hallows]
  have hpoint : expression.allowsPoint = found.allowsPoint := by
    funext point
    cases point with
    | moment m =>
        have hdateTime : expression.allowsDateTime = found.allowsDateTime := by
          funext dateTime
          rw [allowsDateTime, allowsDateTime, hallows]
        rw [allowsPoint, allowsPoint, allowsMoment, allowsMoment, hdateTime]
    | stored value => rfl
  exact ⟨fun _ _ => by rw [hallowsDay], fun _ _ _ _ _ => by rw [hallows], fun _ => by rw [hpoint],
    fun point => by rw [firings, firings, hfirings]⟩

/-- The text of an expression has five words with single spaces between them, stays as it is when it
is normalized, and reads as the same expression. Two expressions are equal by their texts exactly if
these were read from the same words; then they have one hash, the same fields, and the same
matches. -/
theorem texts_are_faithful_keys (h : ofText given = .ok expression) :
    (words given.toList).length = 5 ∧
      (∀ word ∈ words given.toList, word ≠ [] ∧ ∀ c ∈ word, isBlank c = false) ∧
      expression.text = String.ofList (join ' ' (words given.toList)) ∧
      Cache.keyOf expression.text = expression.text ∧
      ofText expression.text = .ok expression ∧
      ∀ (other : String) (found : Expression), ofText other = .ok found →
        (expression.sameText found = true ↔ words given.toList = words other.toList) ∧
        (expression.sameText found = true → (∀ hash, expression.hashBy hash = found.hashBy hash) ∧
          (∀ kind, expression.fieldOf kind = found.fieldOf kind) ∧
            expression.MatchesLike found) := by
  refine ⟨length_words_of_ofText h, ?_, text_of_ofText h, ?_, ofText_text h, ?_⟩
  · intro word hw
    exact ⟨ne_nil_of_mem_words hw, not_isBlank_of_mem_words hw⟩
  · rw [text_eq_keyOf h, Cache.keyOf_keyOf]
  · intro other found hf
    refine ⟨sameText_iff_words h hf, fun hs => ?_⟩
    have hfields : ∀ kind, expression.fieldOf kind = found.fieldOf kind := by
      intro kind
      rw [eq_of_sameText h hf hs]
    refine ⟨fun hash => ?_, hfields, matchesLike_of_fields hfields⟩
    rw [hashBy, hashBy, sameText_iff.1 hs]

/-- Blanks beyond ASCII separate words as spaces do, while a leading zero makes another word. -/
theorem texts_are_faithful_keys_blanks :
    ∃ expression found padded, ofText "\u30000 9\u2028* *\t1-5 " = .ok expression ∧
      ofText "0 9 * * 1-5" = .ok found ∧
      ofText "00 9 * * 1-5" = .ok padded ∧ expression.text = "0 9 * * 1-5" ∧
        expression.sameText padded = false ∧
        expression.sameText found = true ∧ (∀ hash, expression.hashBy hash = found.hashBy hash) ∧
          (∀ kind, expression.fieldOf kind = found.fieldOf kind) ∧
            expression.MatchesLike found := by
  have he : ofText "\u30000 9\u2028* *\t1-5 " = .ok _ := rfl
  have hf : ofText "0 9 * * 1-5" = .ok _ := rfl
  have hp : ofText "00 9 * * 1-5" = .ok _ := rfl
  rcases texts_are_faithful_keys he with ⟨-, -, htext, -, -, hsame⟩
  rcases hsame _ _ hf with ⟨hiff, halike⟩
  have hpadded := (hsame _ _ hp).1
  have hequal := hiff.2 (by decide)
  have hother := mt hpadded.1 (by decide)
  exact ⟨_, _, _, he, hf, hp, htext, by simpa using hother, hequal, halike hequal⟩

end Almanac.Cron.Expression
