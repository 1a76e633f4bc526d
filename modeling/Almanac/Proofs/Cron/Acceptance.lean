import Almanac.Proofs.Cron.Meaning

/-!
# Which texts are expressions

A text is an expression exactly if it has five words and the grammar gives each of them to its
field. Then each field allows what its word means.
-/

namespace Almanac.Cron

open Almanac.Text

def FieldKind.inOrder : List FieldKind := [.minute, .hour, .dayOfMonth, .month, .dayOfWeek]

/-- The field says what the text means: by one of its readings, it allows the numbers meant, in
ascending order, and it is a wildcard if the text is the asterisk. -/
def Field.Means (field : Field) (kind : FieldKind) (text : List Char) : Prop :=
  (field.isWildcard = true ↔ text = ['*']) ∧ field.values.Pairwise (· < ·) ∧
    ∃ pattern : Pattern, pattern.Reads kind text ∧ ∀ n, n ∈ field.values ↔ n ∈ pattern.meaning kind

theorem Pattern.Reads.means {kind : FieldKind} {text : List Char} {pattern : Pattern}
    (h : pattern.Reads kind text) :
    (pattern.field kind).Means kind text := by
  refine ⟨?_, pairwise_values kind pattern, pattern, h, fun n => mem_values_iff h.2⟩
  rw [← h.eq_any_iff]
  exact decide_eq_true_iff

namespace Expression

def fieldOf (expression : Expression) : FieldKind → Field
  | .minute => expression.minute
  | .hour => expression.hour
  | .dayOfMonth => expression.dayOfMonth
  | .month => expression.month
  | .dayOfWeek => expression.dayOfWeek

theorem field_of_reads {kind : FieldKind} {word : List Char} (h : HasShortNumerals word)
    {pattern : Pattern} (hp : pattern.Reads kind word) :
    field kind word = .ok (pattern.field kind) := by
  rw [field, Reader.pattern_of_reads h hp]
  rfl

theorem field_means {kind : FieldKind} {word : List Char} {found : Field}
    (h : field kind word = .ok found) :
    found.Means kind word := by
  obtain ⟨pattern, hp, rfl⟩ := map_eq_ok_iff.1 h
  exact (Reader.reads_of_pattern hp).means

theorem ofWords_eq_ok_iff {text : String} {minute hour dayOfMonth month dayOfWeek : List Char}
    {found : Expression} :
    ofWords text minute hour dayOfMonth month dayOfWeek = .ok found ↔
      found.text = text ∧ field .minute minute = .ok found.minute ∧
        field .hour hour = .ok found.hour ∧
        field .dayOfMonth dayOfMonth = .ok found.dayOfMonth ∧ field .month month = .ok found.month ∧
          field .dayOfWeek dayOfWeek = .ok found.dayOfWeek := by
  constructor
  · intro h
    obtain ⟨m, hm, h⟩ := bind_eq_ok_iff.1 h
    rcases bind_eq_ok_iff.1 h with ⟨o, ho, h⟩
    obtain ⟨d, hd, h⟩ := bind_eq_ok_iff.1 h
    rcases bind_eq_ok_iff.1 h with ⟨n, hn, h⟩
    obtain ⟨w, hw, h⟩ := bind_eq_ok_iff.1 h
    cases h
    exact ⟨rfl, hm, ho, hd, hn, hw⟩
  · intro h
    rcases h with ⟨rfl, hm, ho, hd, hn, hw⟩
    rw [ofWords, hm, ho, hd, hn, hw]
    rfl

theorem ofText_of_words {given : String} {minute hour dayOfMonth month dayOfWeek : List Char}
    (hw : words given.toList = [minute, hour, dayOfMonth, month, dayOfWeek]) :
    ofText given =
      (ofWords (String.ofList (normalized given.toList)) minute hour dayOfMonth month
        dayOfWeek).mapError
      (·.error (String.ofList (normalized given.toList))) := by
  rw [ofText, hw]

theorem ofText_eq_ok_iff {given : String} {found : Expression} :
    ofText given = .ok found ↔ ∃ minute hour dayOfMonth month dayOfWeek,
      words given.toList = [minute, hour, dayOfMonth, month, dayOfWeek] ∧
        ofWords (String.ofList (normalized given.toList)) minute hour dayOfMonth month dayOfWeek =
          .ok found := by
  constructor
  · intro h
    unfold ofText at h
    split at h
    · contradiction
    · rename_i minute hour dayOfMonth month dayOfWeek hw
      refine ⟨minute, hour, dayOfMonth, month, dayOfWeek, hw, ?_⟩
      cases ho : ofWords (String.ofList (normalized given.toList)) minute hour dayOfMonth month
        dayOfWeek with
      | error refusal => simp [ho, Except.mapError] at h
      | ok expression =>
          simp only [ho, Except.mapError] at h
          rw [Except.ok.inj h]
    · contradiction
  · intro h
    rcases h with ⟨minute, hour, dayOfMonth, month, dayOfWeek, hw, ho⟩
    rw [ofText_of_words hw, ho]
    rfl

theorem text_of_ofText {given : String} {expression : Expression}
    (h : ofText given = .ok expression) :
    expression.text = String.ofList (normalized given.toList) := by
  obtain ⟨_, _, _, _, _, -, ho⟩ := ofText_eq_ok_iff.1 h
  exact (ofWords_eq_ok_iff.1 ho).1

section Texts

variable {given : String}

theorem fields_mean {expression : Expression} (he : ofText given = .ok expression) :
    List.Forall₂ (fun kind word => (expression.fieldOf kind).Means kind word) FieldKind.inOrder
      (words given.toList) := by
  obtain ⟨minute, hour, dayOfMonth, month, dayOfWeek, hw, ho⟩ := ofText_eq_ok_iff.1 he
  obtain ⟨-, hm, ho, hd, hn, hk⟩ := ofWords_eq_ok_iff.1 ho
  rw [hw]
  have hminute := field_means hm
  have hhour := field_means ho
  have hday := field_means hd
  have hmonth := field_means hn
  have hweekday := field_means hk
  exact .cons hminute (.cons hhour (.cons hday (.cons hmonth (.cons hweekday .nil))))

theorem exists_of_reads (h : ∀ word ∈ words given.toList, HasShortNumerals word)
    (hr : List.Forall₂ (fun kind word => ∃ pattern : Pattern, pattern.Reads kind word)
      FieldKind.inOrder (words given.toList)) :
    ∃ expression, ofText given = .ok expression := by
  generalize hw : words given.toList = parts at h hr
  rcases List.forall₂_cons_left_iff.1 hr with ⟨minute, _, ⟨m, hm⟩, hafter, rfl⟩
  rcases List.forall₂_cons_left_iff.1 hafter with ⟨hour, _, ⟨o, ho⟩, hafter', rfl⟩
  rcases List.forall₂_cons_left_iff.1 hafter' with ⟨dayOfMonth, _, ⟨d, hd⟩, hlast, rfl⟩
  rcases List.forall₂_cons_left_iff.1 hlast with ⟨month, _, ⟨n, hn⟩, hlast', rfl⟩
  rcases List.forall₂_cons_left_iff.1 hlast' with ⟨dayOfWeek, _, ⟨k, hk⟩, hnil, rfl⟩
  obtain rfl := List.forall₂_nil_left_iff.1 hnil
  refine ⟨⟨String.ofList (normalized given.toList), m.field .minute, o.field .hour,
    d.field .dayOfMonth, n.field .month, k.field .dayOfWeek⟩,
    ofText_eq_ok_iff.2 ⟨_, _, _, _, _, hw, ofWords_eq_ok_iff.2 ?_⟩⟩
  have hminute := field_of_reads (h minute (by simp)) hm
  have hhour := field_of_reads (h hour (by simp)) ho
  have hday := field_of_reads (h dayOfMonth (by simp)) hd
  have hmonth := field_of_reads (h month (by simp)) hn
  have hweekday := field_of_reads (h dayOfWeek (by simp)) hk
  exact ⟨rfl, hminute, hhour, hday, hmonth, hweekday⟩

end Texts

/-- Without numerals that are too long, the texts of expressions are those that the grammar accepts,
and an expression means what its words do. -/
theorem ofText_accepts_grammar (given : String) (h : HasShortNumerals given.toList) :
    ((∃ expression, ofText given = .ok expression) ↔
        List.Forall₂ (fun kind word => ∃ pattern : Pattern, pattern.Reads kind word)
          FieldKind.inOrder (words given.toList)) ∧
      ∀ expression, ofText given = .ok expression →
        List.Forall₂ (fun kind word => (expression.fieldOf kind).Means kind word) FieldKind.inOrder
          (words given.toList) := by
  have hshort : ∀ word ∈ words given.toList, HasShortNumerals word := by
    intro word hw
    exact h.of_infix (infix_of_mem_words hw)
  refine ⟨⟨?_, exists_of_reads hshort⟩, fun expression he => fields_mean he⟩
  intro h
  rcases h with ⟨expression, he⟩
  apply (fields_mean he).imp
  intro kind word hm
  obtain ⟨-, -, pattern, hr, -⟩ := hm
  exact ⟨pattern, hr⟩

theorem ofText_accepts_grammar_ranges :
    ∃ expression, ofText " 0/20 08-9,7\t* 1-12/05 5-7" = .ok expression ∧
      List.Forall₂ (fun kind word => (expression.fieldOf kind).Means kind word) FieldKind.inOrder
        (words " 0/20 08-9,7\t* 1-12/05 5-7".toList) :=
  ⟨_, rfl, (ofText_accepts_grammar _ (.of_length (by decide))).2 _ rfl⟩

end Expression

end Almanac.Cron
