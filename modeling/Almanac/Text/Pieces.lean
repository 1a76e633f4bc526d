/-!
# Pieces of a text

A text is a list of characters. It is cut at every character of a class (`pieces`), or at the first
occurrence of one character (`cut`). Cutting loses nothing but the cut characters, and no piece
holds one.
-/

namespace Almanac.Text

/-- The parts of a text between the characters that `breaks` selects; a text without any is one
part. -/
def pieces (breaks : Char → Bool) : List Char → List (List Char)
  | [] => [[]]
  | c :: rest =>
      if breaks c then [] :: pieces breaks rest
      else
        match pieces breaks rest with
        | [] => [[c]]
        | head :: tail => (c :: head) :: tail

def cut (mark : Char) : List Char → Option (List Char × List Char)
  | [] => none
  | c :: rest =>
      if c = mark then some ([], rest)
      else (cut mark rest).map fun parts => (c :: parts.1, parts.2)

def join (mark : Char) : List (List Char) → List Char
  | [] => []
  | [part] => part
  | part :: rest => part ++ mark :: join mark rest

theorem pieces_ne_nil (breaks : Char → Bool) (text : List Char) : pieces breaks text ≠ [] := by
  cases text with
  | nil => simp [pieces]
  | cons c rest =>
      unfold pieces
      split
      · simp
      · split <;> simp

theorem not_breaks_of_mem_pieces (breaks : Char → Bool) (text : List Char) :
    ∀ part ∈ pieces breaks text, ∀ c ∈ part, breaks c = false := by
  induction text with
  | nil => simp [pieces]
  | cons c rest ih =>
      unfold pieces
      split
      · intro part hp
        rcases List.mem_cons.1 hp with rfl | hp
        · simp
        · exact ih part hp
      · rename_i hc
        split
        · rename_i he
          exact absurd he (pieces_ne_nil breaks rest)
        · rename_i head tail he
          intro part hp x hx
          rcases List.mem_cons.1 hp with rfl | hp
          · rcases List.mem_cons.1 hx with rfl | hx
            · simpa using hc
            · exact ih head (by simp [he]) x hx
          · exact ih part (by simp [he, hp]) x hx

theorem pieces_append_break {breaks : Char → Bool} {mark : Char} (hm : breaks mark = true)
    (part rest : List Char) (hp : ∀ c ∈ part, breaks c = false) :
    pieces breaks (part ++ mark :: rest) = part :: pieces breaks rest := by
  induction part with
  | nil => simp [pieces, hm]
  | cons c part ih =>
      have hc : breaks c = false := hp c (by simp)
      have ih := ih fun x hx => hp x (by simp [hx])
      simp [pieces, hc, ih]

theorem pieces_of_unbroken {breaks : Char → Bool} (part : List Char)
    (hp : ∀ c ∈ part, breaks c = false) : pieces breaks part = [part] := by
  induction part with
  | nil => rfl
  | cons c part ih =>
      have hc : breaks c = false := hp c (by simp)
      have ih := ih fun x hx => hp x (by simp [hx])
      simp [pieces, hc, ih]

theorem pieces_join {breaks : Char → Bool} {mark : Char} (hm : breaks mark = true)
    (parts : List (List Char)) (hne : parts ≠ [])
    (hp : ∀ part ∈ parts, ∀ c ∈ part, breaks c = false) :
    pieces breaks (join mark parts) = parts := by
  induction parts with
  | nil => exact absurd rfl hne
  | cons part rest ih =>
      have hhead : ∀ c ∈ part, breaks c = false := hp part (by simp)
      cases rest with
      | nil => exact pieces_of_unbroken part hhead
      | cons next rest =>
          have ih := ih (by simp) fun q hq => hp q (by simp [hq])
          rw [join, pieces_append_break hm part _ hhead, ih]
          simp

theorem cut_eq_some_iff (mark : Char) (text before after : List Char) :
    cut mark text = some (before, after) ↔ text = before ++ mark :: after ∧ mark ∉ before := by
  induction text generalizing before with
  | nil => simp [cut]
  | cons c rest ih =>
      unfold cut
      by_cases hc : c = mark
      · subst hc
        cases before with
        | nil => simp
        | cons b before =>
            simp only [↓reduceIte, Option.some.injEq, Prod.mk.injEq, List.cons_append,
              List.cons.injEq, List.mem_cons, not_or]
            constructor
            · rintro ⟨h, _⟩; cases h
            · rintro ⟨⟨h, _⟩, h', _⟩; exact absurd h h'
      · simp only [hc, ↓reduceIte, Option.map_eq_some_iff, Prod.mk.injEq, Prod.exists]
        constructor
        · rintro ⟨b, a, h, rfl, rfl⟩
          obtain ⟨rfl, hn⟩ := (ih b).1 h
          exact ⟨rfl, by simp [hn, Ne.symm hc]⟩
        · rintro ⟨h, hn⟩
          cases before with
          | nil => simp at h; exact absurd h.1 hc
          | cons b before =>
              simp only [List.cons_append, List.cons.injEq] at h
              obtain ⟨rfl, h⟩ := h
              exact ⟨before, after, (ih before).2 ⟨h, fun hx => hn (by simp [hx])⟩, rfl, rfl⟩

theorem cut_eq_none_iff (mark : Char) (text : List Char) : cut mark text = none ↔ mark ∉ text := by
  induction text with
  | nil => simp [cut]
  | cons c rest ih =>
      unfold cut
      by_cases hc : c = mark
      · simp [hc]
      · simp [hc, ih, Ne.symm hc]

end Almanac.Text
