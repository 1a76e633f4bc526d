import Almanac.Cron.Reader
import Almanac.Proofs.Result
import Almanac.Proofs.Text.Parts

/-!
# The grammar of cron fields

What a field may look like, apart from how it is read: the asterisk, or a list of items with commas
between them, each of one of five forms. Whatever pattern is read from a text is valid, and the
grammar gives it to the text. Any such pattern is read, as long as no numeral is too long for that.
-/

namespace Almanac.Cron

open Almanac.Text

inductive Item.HasText : Item → List Char → Prop
  | single {text n} : IsNumeral text n → (single n).HasText text
  | span {before after a b} : IsNumeral before a → IsNumeral after b →
      (span a b).HasText (before ++ '-' :: after)
  | stepped {last step} : IsNumeral last step → (stepped step).HasText ('*' :: '/' :: last)
  | onward {text last n step} : IsNumeral text n → IsNumeral last step →
      (onward n step).HasText (text ++ '/' :: last)
  | spanStepped {before after last a b step} : IsNumeral before a → IsNumeral after b →
      IsNumeral last step → (spanStepped a b step).HasText (before ++ '-' :: after ++ '/' :: last)

inductive Pattern.HasText : Pattern → List Char → Prop
  | any : any.HasText ['*']
  | list {items parts} : List.Forall₂ Item.HasText items parts →
      (list items).HasText (join ',' parts)

def Pattern.Reads (kind : FieldKind) (text : List Char) (pattern : Pattern) : Prop :=
  pattern.HasText text ∧ pattern.IsValid kind

theorem Item.HasText.not_mem_comma {item : Item} {text : List Char} (h : item.HasText text) :
    ',' ∉ text := by
  cases h with
  | single hn => exact hn.not_mem_comma
  | span ha hb => simp [ha.not_mem_comma, hb.not_mem_comma]
  | stepped hs => simp [hs.not_mem_comma]
  | onward hn hs => simp [hn.not_mem_comma, hs.not_mem_comma]
  | spanStepped ha hb hs => simp [ha.not_mem_comma, hb.not_mem_comma, hs.not_mem_comma]

theorem Item.HasText.ne_nil {item : Item} {text : List Char} (h : item.HasText text) :
    text ≠ [] := by
  cases h with
  | single hn => exact hn.1
  | stepped hs => simp
  | _ => simp

theorem Item.HasText.ne_asterisk {item : Item} {text : List Char} (h : item.HasText text) :
    text ≠ ['*'] := by
  intro he
  subst he
  generalize ht : ['*'] = text at h
  cases h with
  | single hn => exact hn.not_mem_asterisk (by simp [← ht])
  | span ha hb => simp [List.cons_eq_append_iff, ha.1] at ht
  | stepped hs => simp at ht
  | onward hn hs => simp [List.cons_eq_append_iff, hn.1] at ht
  | spanStepped ha hb hs => simp [List.cons_eq_append_iff, ha.1] at ht

theorem exists_item_of_mem {found : List Item} {parts : List (List Char)}
    (h : List.Forall₂ Item.HasText found parts) :
    ∀ part ∈ parts, ∃ item : Item, item.HasText part := by
  induction h with
  | nil => simp
  | cons hhead _ ih => exact List.forall_mem_cons.2 ⟨⟨_, hhead⟩, ih⟩

theorem pieces_of_forall₂ {found : List Item} {parts : List (List Char)} (hne : found ≠ [])
    (h : List.Forall₂ Item.HasText found parts) : pieces (· == ',') (join ',' parts) = parts := by
  have hparts : parts ≠ [] := by
    intro he
    subst he
    exact hne (List.forall₂_nil_right_iff.1 h)
  apply pieces_join (by rfl) parts hparts
  intro part hp c hc
  obtain ⟨item, ht⟩ := exists_item_of_mem h part hp
  have hcomma : c ≠ ',' := fun he => ht.not_mem_comma (he ▸ hc)
  simpa using hcomma

theorem join_ne_asterisk {found : List Item} {parts : List (List Char)} (hne : found ≠ [])
    (h : List.Forall₂ Item.HasText found parts) : join ',' parts ≠ ['*'] := by
  intro he
  have hp := pieces_of_forall₂ hne h
  rw [he] at hp
  have hm : ['*'] ∈ parts := by
    rw [← hp]
    decide
  obtain ⟨item, ht⟩ := exists_item_of_mem h ['*'] hm
  exact ht.ne_asterisk rfl

/-- The text writes a number in ASCII digits, and is short enough to be read. -/
def IsReadable (text : List Char) (n : Nat) : Prop := IsNumeral text n ∧ text.length ≤ digitLimit

theorem IsReadable.of_isNumeral {text : List Char} {n : Nat} (h : HasShortNumerals text)
    (hn : IsNumeral text n) :
    IsReadable text n :=
  ⟨hn, h text (List.infix_refl text) hn.2.1⟩

theorem Pattern.Reads.eq_any_iff {kind : FieldKind} {text : List Char} {pattern : Pattern}
    (h : pattern.Reads kind text) : pattern = .any ↔ text = ['*'] := by
  rcases h with ⟨ht, hv⟩
  cases ht with
  | any => simp
  | list hf => simp [join_ne_asterisk hv.1 hf]

namespace Reader

variable {kind : FieldKind} {text : List Char}

/-! ## Numbers -/

theorem number_eq_ok_iff {n : Nat} : number kind text = .ok n ↔ IsReadable text n := by
  constructor
  · intro h
    unfold number at h
    split at h
    · rename_i hd
      split at h
      · rename_i hl
        rw [← Except.ok.inj h]
        exact ⟨isNumeral_of_isDigits hd, hl⟩
      · contradiction
    · contradiction
  · intro h
    rw [number, if_pos h.1.isDigits, if_pos h.2, h.1.2.2]

theorem bounded_eq_ok_iff {n : Nat} :
    bounded kind text = .ok n ↔ IsReadable text n ∧ kind.low ≤ n ∧ n ≤ kind.high := by
  rw [bounded, bind_eq_ok_iff]
  constructor
  · intro h
    obtain ⟨m, hm, hr⟩ := h
    split at hr
    · rename_i hb
      obtain rfl := Except.ok.inj hr
      exact ⟨number_eq_ok_iff.1 hm, hb⟩
    · contradiction
  · intro h
    refine ⟨n, number_eq_ok_iff.2 h.1, ?_⟩
    rw [if_pos h.2]
    rfl

theorem positive_eq_ok_iff {step : Nat} : positive kind text = .ok step ↔
    IsReadable text step ∧ 1 ≤ step := by
  rw [positive, bind_eq_ok_iff]
  constructor
  · intro h
    obtain ⟨n, hn, hr⟩ := h
    split at hr
    · contradiction
    · rename_i hz
      obtain rfl := Except.ok.inj hr
      exact ⟨number_eq_ok_iff.1 hn, Nat.one_le_iff_ne_zero.2 hz⟩
  · intro h
    refine ⟨step, number_eq_ok_iff.2 h.1, ?_⟩
    rw [if_neg (Nat.one_le_iff_ne_zero.1 h.2)]
    rfl

theorem range_eq_ok_iff {before after : List Char} {a b : Nat} :
    range kind text before after = .ok (a, b) ↔
      IsReadable before a ∧ IsReadable after b ∧ kind.low ≤ a ∧ a ≤ b ∧ b ≤ kind.high := by
  rw [range, bind_eq_ok_iff]
  constructor
  · intro h
    obtain ⟨m, hm, hr⟩ := h
    obtain ⟨n, hn, hr⟩ := bind_eq_ok_iff.1 hr
    obtain ⟨hfirst, hlow, -⟩ := bounded_eq_ok_iff.1 hm
    obtain ⟨hlast, -, hhigh⟩ := bounded_eq_ok_iff.1 hn
    split at hr
    · rename_i hle
      cases hr
      exact ⟨hfirst, hlast, hlow, hle, hhigh⟩
    · contradiction
  · intro h
    obtain ⟨ha, hb, hlow, hle, hhigh⟩ := h
    have hfirst := bounded_eq_ok_iff.2 ⟨ha, hlow, Nat.le_trans hle hhigh⟩
    have hlast := bounded_eq_ok_iff.2 ⟨hb, Nat.le_trans hlow hle, hhigh⟩
    refine ⟨a, hfirst, bind_eq_ok_iff.2 ⟨b, hlast, ?_⟩⟩
    rw [if_pos hle]
    rfl

/-! ## Items -/

theorem hasText_of_plainItem {found : Item} (h : plainItem kind text = .ok found) :
    found.HasText text ∧ found.IsValid kind := by
  unfold plainItem at h
  cases hc : cut '-' text with
  | none =>
      simp only [hc] at h
      rcases bind_eq_ok_iff.1 h with ⟨n, hn, hr⟩
      have hn := bounded_eq_ok_iff.1 hn
      cases hr
      exact ⟨.single hn.1.1, hn.2⟩
  | some parts =>
      rcases parts with ⟨before, after⟩
      simp only [hc] at h
      rcases (cut_eq_some_iff _ _ _ _).1 hc with ⟨rfl, -⟩
      rcases bind_eq_ok_iff.1 h with ⟨⟨a, b⟩, hab, hr⟩
      have hab := range_eq_ok_iff.1 hab
      cases hr
      exact ⟨.span hab.1.1 hab.2.1.1, hab.2.2⟩

theorem hasText_of_steppedItem {last : List Char} {found : Item}
    (h : steppedItem kind text last = .ok found) :
    found.HasText (text ++ '/' :: last) ∧ found.IsValid kind := by
  rcases bind_eq_ok_iff.1 h with ⟨step, hs, h⟩
  have hs := positive_eq_ok_iff.1 hs
  split at h
  · rename_i ht
    cases h
    rw [ht]
    exact ⟨.stepped hs.1.1, hs.2⟩
  · cases hc : cut '-' text with
    | none =>
        simp only [hc] at h
        rcases bind_eq_ok_iff.1 h with ⟨n, hn, hr⟩
        have hn := bounded_eq_ok_iff.1 hn
        cases hr
        exact ⟨.onward hn.1.1 hs.1.1, hn.2, hs.2⟩
    | some parts =>
        rcases parts with ⟨before, after⟩
        simp only [hc] at h
        rcases (cut_eq_some_iff _ _ _ _).1 hc with ⟨rfl, -⟩
        rcases bind_eq_ok_iff.1 h with ⟨⟨a, b⟩, hab, hr⟩
        have hab := range_eq_ok_iff.1 hab
        cases hr
        exact ⟨.spanStepped hab.1.1 hab.2.1.1 hs.1.1, hab.2.2, hs.2⟩

theorem hasText_of_item {field : List Char} {found : Item} (h : item kind field text = .ok found) :
    found.HasText text ∧ found.IsValid kind := by
  unfold item at h
  split at h
  · contradiction
  · cases hc : cut '/' text with
    | none =>
        simp only [hc] at h
        exact hasText_of_plainItem h
    | some parts =>
        rcases parts with ⟨before, last⟩
        simp only [hc] at h
        rcases (cut_eq_some_iff _ _ _ _).1 hc with ⟨rfl, -⟩
        exact hasText_of_steppedItem h

section Written

variable {before after last : List Char} {n a b step : Nat}

theorem plainItem_of_number (hn : IsReadable text n) (hb : kind.low ≤ n ∧ n ≤ kind.high) :
    plainItem kind text = .ok (.single n) := by
  rw [plainItem, (cut_eq_none_iff _ _).2 hn.1.not_mem_dash, bounded_eq_ok_iff.2 ⟨hn, hb⟩]
  rfl

theorem plainItem_of_range (ha : IsReadable before a) (hb : IsReadable after b)
    (hv : kind.low ≤ a ∧ a ≤ b ∧ b ≤ kind.high) :
    plainItem kind (before ++ '-' :: after) = .ok (.span a b) := by
  rw [plainItem, (cut_eq_some_iff _ _ _ _).2 ⟨rfl, ha.1.not_mem_dash⟩]
  show (range kind _ before after >>= _) = _
  rw [range_eq_ok_iff.2 ⟨ha, hb, hv⟩]
  rfl

theorem steppedItem_of_asterisk (hs : IsReadable last step) (hv : 1 ≤ step) :
    steppedItem kind ['*'] last = .ok (.stepped step) := by
  rw [steppedItem, positive_eq_ok_iff.2 ⟨hs, hv⟩]
  rfl

theorem steppedItem_of_number (hn : IsReadable text n) (hs : IsReadable last step)
    (hb : kind.low ≤ n ∧ n ≤ kind.high) (hv : 1 ≤ step) :
    steppedItem kind text last = .ok (.onward n step) := by
  have hne : text ≠ ['*'] := (Item.HasText.single hn.1).ne_asterisk
  rw [steppedItem, positive_eq_ok_iff.2 ⟨hs, hv⟩]
  show (if text = ['*'] then _ else _) = _
  rw [if_neg hne, (cut_eq_none_iff _ _).2 hn.1.not_mem_dash, bounded_eq_ok_iff.2 ⟨hn, hb⟩]
  rfl

theorem steppedItem_of_range (ha : IsReadable before a) (hb : IsReadable after b)
    (hs : IsReadable last step) (hr : kind.low ≤ a ∧ a ≤ b ∧ b ≤ kind.high) (hv : 1 ≤ step) :
    steppedItem kind (before ++ '-' :: after) last = .ok (.spanStepped a b step) := by
  have hne : before ++ '-' :: after ≠ ['*'] := (Item.HasText.span ha.1 hb.1).ne_asterisk
  rw [steppedItem, positive_eq_ok_iff.2 ⟨hs, hv⟩]
  show (if _ = ['*'] then _ else _) = _
  rw [if_neg hne, (cut_eq_some_iff _ _ _ _).2 ⟨rfl, ha.1.not_mem_dash⟩]
  show (range kind _ before after >>= _) = _
  rw [range_eq_ok_iff.2 ⟨ha, hb, hr⟩]
  rfl

end Written

theorem item_of_hasText (h : HasShortNumerals text) {field : List Char} {found : Item}
    (ht : found.HasText text) (hv : found.IsValid kind) : item kind field text = .ok found := by
  rw [item, if_neg ht.ne_nil]
  -- numerals hold no slash, so the first one is the one that the grammar writes
  cases ht with
  | single hn =>
      rw [(cut_eq_none_iff _ _).2 hn.not_mem_slash]
      exact plainItem_of_number (.of_isNumeral h hn) hv
  | @span before after a b ha hb =>
      have hc : '/' ∉ before ++ '-' :: after := by simp [ha.not_mem_slash, hb.not_mem_slash]
      rw [(cut_eq_none_iff _ _).2 hc]
      exact plainItem_of_range (.of_isNumeral h.before ha) (.of_isNumeral h.after hb) hv
  | @stepped last step hs =>
      have hc : cut '/' ('*' :: '/' :: last) = some (['*'], last) := by simp [cut]
      have hl : HasShortNumerals (['*'] ++ '/' :: last) := h
      rw [hc]
      exact steppedItem_of_asterisk (.of_isNumeral hl.after hs) hv
  | onward hn hs =>
      rw [(cut_eq_some_iff _ _ _ _).2 ⟨rfl, hn.not_mem_slash⟩]
      exact steppedItem_of_number (.of_isNumeral h.before hn) (.of_isNumeral h.after hs) hv.1 hv.2
  | @spanStepped before after last a b step ha hb hs =>
      have hc : '/' ∉ before ++ '-' :: after := by simp [ha.not_mem_slash, hb.not_mem_slash]
      rw [(cut_eq_some_iff _ _ _ _).2 ⟨rfl, hc⟩]
      exact steppedItem_of_range (.of_isNumeral h.before.before ha)
        (.of_isNumeral h.before.after hb)
        (.of_isNumeral h.after hs) hv.1 hv.2

/-! ## Fields -/

theorem hasText_of_items {field : List Char} {parts : List (List Char)} {found : List Item}
    (h : items kind field parts = .ok found) :
    List.Forall₂ Item.HasText found parts ∧ ∀ item ∈ found, item.IsValid kind := by
  induction parts generalizing found with
  | nil =>
      cases h
      exact ⟨.nil, by simp⟩
  | cons part rest ih =>
      rcases bind_eq_ok_iff.1 h with ⟨head, hh, hr⟩
      rcases bind_eq_ok_iff.1 hr with ⟨tail, ht, hr⟩
      have hhead := hasText_of_item hh
      have htail := ih ht
      cases hr
      exact ⟨.cons hhead.1 htail.1, List.forall_mem_cons.2 ⟨hhead.2, htail.2⟩⟩

theorem items_of_hasText {field : List Char} {parts : List (List Char)}
    (h : ∀ part ∈ parts, HasShortNumerals part) {found : List Item}
    (hf : List.Forall₂ Item.HasText found parts)
    (hv : ∀ item ∈ found, item.IsValid kind) : items kind field parts = .ok found := by
  induction hf with
  | nil => rfl
  | @cons head part tail rest hhead _ ih =>
      have hshort := List.forall_mem_cons.1 h
      have hvalid := List.forall_mem_cons.1 hv
      have hitem : item kind field part = .ok head := item_of_hasText hshort.1 hhead hvalid.1
      exact bind_eq_ok_iff.2 ⟨head, hitem, bind_eq_ok_iff.2 ⟨tail, ih hshort.2 hvalid.2, rfl⟩⟩

theorem reads_of_pattern {found : Pattern} (h : pattern kind text = .ok found) :
    found.Reads kind text := by
  unfold pattern at h
  split at h
  · rename_i ht
    cases h
    rw [ht]
    exact ⟨.any, trivial⟩
  · rcases map_eq_ok_iff.1 h with ⟨items, hr, rfl⟩
    have hr := hasText_of_items hr
    have hne : items ≠ [] := by
      intro he
      subst he
      exact pieces_ne_nil _ text (List.forall₂_nil_left_iff.1 hr.1)
    refine ⟨?_, hne, hr.2⟩
    rw [← join_pieces ',' text]
    exact .list hr.1

theorem pattern_of_reads (h : HasShortNumerals text) {found : Pattern}
    (hr : found.Reads kind text) :
    pattern kind text = .ok found := by
  have hparts : ∀ part ∈ pieces (· == ',') text, HasShortNumerals part :=
    fun part hp => h.of_infix (infix_of_mem_pieces hp)
  cases hr.1 with
  | any => rfl
  | @list items parts hf =>
      have hv := hr.2
      have hp := pieces_of_forall₂ hv.1 hf
      rw [hp] at hparts
      rw [pattern, if_neg (join_ne_asterisk hv.1 hf), hp, items_of_hasText hparts hf hv.2]
      rfl

end Reader

end Almanac.Cron
