import AiSaas.Python

/-!
# Lines

The lines of a text, as `str.splitlines` takes them and as a file of one message a line
means them.

* `splitlines`, `joinLines` — `str.splitlines` and `"\n".join`.
* `splitOn_eq` — a text whose only line breaks are line feeds has the lines between them.
-/

namespace AiSaas

/-- A character at which `str.splitlines` ends a line. -/
def lineBreak (c : Char) : Bool :=
  (10 ≤ c.toNat && c.toNat ≤ 13) || (28 ≤ c.toNat && c.toNat ≤ 30) || c.toNat == 0x85 ||
    c.toNat == 0x2028 || c.toNat == 0x2029

/-- The lines of a text, of which the first has begun. -/
def splitChars : List Char → List (List Char)
  | [] => []
  | '\r' :: '\n' :: s => [] :: splitChars s
  | c :: s =>
    if lineBreak c then [] :: splitChars s else
      match splitChars s with
      | [] => [[c]]
      | line :: lines => (c :: line) :: lines

/-- `str.splitlines`. -/
def splitlines (s : String) : List String := (splitChars s.toList).map String.ofList

/-- `"\n".join(lines)`. -/
def joinLines (lines : List String) : String :=
  String.ofList (List.intercalate ['\n'] (lines.map String.toList))

example : splitlines "a\r\nb\u2028\n" = ["a", "b", ""] := by decide +kernel

/-- No line of a text holds a line feed. -/
theorem not_mem_of_mem_splitChars {s line : List Char} (h : line ∈ splitChars s) : '\n' ∉ line := by
  induction s using splitChars.induct generalizing line with
  | case1 => cases h
  | case2 s ih =>
    rw [splitChars] at h
    rcases List.mem_cons.mp h with rfl | h
    · exact List.not_mem_nil
    · exact ih h
  | case3 c s hcr hbreak ih =>
    rw [splitChars.eq_3 _ _ hcr, if_pos hbreak] at h
    rcases List.mem_cons.mp h with rfl | h
    · exact List.not_mem_nil
    · exact ih h
  | case4 c s hcr hbreak hnil ih =>
    rw [splitChars.eq_3 _ _ hcr, if_neg hbreak, hnil] at h
    obtain rfl := List.mem_singleton.mp h
    rw [List.mem_singleton]
    rintro rfl
    exact hbreak (by decide)
  | case5 c s hcr hbreak first lines hcons ih =>
    rw [splitChars.eq_3 _ _ hcr, if_neg hbreak, hcons] at h
    rcases List.mem_cons.mp h with rfl | h
    · rw [List.mem_cons, not_or]
      refine ⟨?_, ih (hcons ▸ List.mem_cons_self)⟩
      rintro rfl
      exact hbreak (by decide)
    · exact ih (hcons ▸ List.mem_cons_of_mem first h)

/-- A text whose only line breaks are line feeds has the lines between them, but for an
empty one at the end. -/
theorem splitOn_eq {s : List Char} (h : ∀ c ∈ s, lineBreak c = true → c = '\n') :
    ∃ rest, (rest = [] ∨ rest = [[]]) ∧ s.splitOn '\n' = splitChars s ++ rest := by
  induction s with
  | nil => exact ⟨[[]], Or.inr rfl, rfl⟩
  | cons c s ih =>
    obtain ⟨rest, hrest, heq⟩ := ih fun x hx => h x (List.mem_cons_of_mem c hx)
    have hcr : ∀ s', c = '\r' → s = '\n' :: s' → False := by
      rintro s' rfl -
      exact absurd (h '\r' List.mem_cons_self (by decide)) (by decide)
    rw [splitChars.eq_3 _ _ hcr]
    rw [List.splitOn_cons_eq_if_modifyHead]
    by_cases hc : lineBreak c = true
    · obtain rfl := h c List.mem_cons_self hc
      exact ⟨rest, hrest, by rw [if_pos hc, heq]; rfl⟩
    · have hne : (c == '\n') = false := by
        rw [beq_eq_false_iff_ne]
        rintro rfl
        exact hc (by decide)
      rw [if_neg hc, hne, heq]
      cases hlines : splitChars s with
      | nil =>
        -- the line that has begun is the last one
        obtain rfl : rest = [[]] := by
          rcases hrest with rfl | hrest
          · rw [hlines, List.nil_append] at heq
            exact absurd heq (List.splitOn_ne_nil '\n' s)
          · exact hrest
        exact ⟨[], Or.inl rfl, rfl⟩
      | cons line lines => exact ⟨rest, hrest, rfl⟩

end AiSaas
