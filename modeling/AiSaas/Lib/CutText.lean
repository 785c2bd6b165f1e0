import AiSaas.Lib.JsonText
import Mathlib.Data.List.Infix

/-!
# Texts that were cut

A text behind whose last line stands one more, which starts with `[T`, is no JSON
document, whatever is in front of it: inside a string the line break may not stand, and
outside of one an array would have to start with `T`.

## Main definitions

* `Marked`, `Tailed` — texts with such a line at their end.

## Main results

* `read_marked` — they do not read.
-/

namespace JsonText

variable {mark s rest u : List Char}

/-- A text that ends in a line that starts with `[T`. -/
def Marked (mark s : List Char) : Prop := '\n' :: '[' :: 'T' :: mark <:+ s

/-- A text that ends so, or is what white space leaves of the end. -/
def Tailed (mark s : List Char) : Prop := Marked mark s ∨ s = '[' :: 'T' :: mark

/-- What has no line break in it has not reached the mark. -/
theorem Marked.of_append (h : Marked mark (u ++ rest)) (hu : '\n' ∉ u) : Marked mark rest := by
  induction u with
  | nil => exact h
  | cons c u ih =>
    rcases List.suffix_cons_iff.mp h with heq | h
    · exact absurd (List.cons.inj heq).1 fun hc => hu (hc ▸ List.mem_cons_self)
    · exact ih h fun hmem => hu (List.mem_cons_of_mem c hmem)

theorem Marked.tail {c : Char} (h : Marked mark (c :: s)) (hc : c ≠ '\n') : Marked mark s :=
  Marked.of_append (u := [c]) h fun hmem => hc (List.mem_singleton.mp hmem).symm

theorem Tailed.of_append (h : Tailed mark (u ++ rest)) (hne : u ≠ [])
    (hu : ∀ c ∈ u, c ≠ '\n' ∧ c ≠ '[') : Marked mark rest := by
  rcases h with h | h
  · exact h.of_append fun hmem => (hu _ hmem).1 rfl
  · cases u with
    | nil => exact absurd rfl hne
    | cons c u => exact absurd (List.cons.inj h).1 (hu c List.mem_cons_self).2

theorem Tailed.tail {c : Char} (h : Tailed mark (c :: s)) (hc : c ≠ '\n') (hc' : c ≠ '[') :
    Marked mark s := by
  refine Tailed.of_append (u := [c]) h (List.cons_ne_nil _ _) fun x hx => ?_
  rw [List.mem_singleton.mp hx]
  exact ⟨hc, hc'⟩

theorem Marked.skip (h : Marked mark s) : Tailed mark (skip s) := by
  induction s with
  | nil => exact absurd (List.suffix_nil.mp h) (List.cons_ne_nil _ _)
  | cons c s ih =>
    rcases List.suffix_cons_iff.mp h with heq | hs
    · rw [← heq]
      exact Or.inr rfl
    · by_cases hc : isBlank c = true
      · rw [JsonText.skip, List.dropWhile_cons_of_pos hc]
        exact ih hs
      · rw [skip_cons (by simpa using hc)]
        exact Or.inl h

theorem Tailed.skip (h : Tailed mark s) : Tailed mark (skip s) := by
  rcases h with h | rfl
  · exact h.skip
  · exact Or.inr rfl

theorem Tailed.ne_nil (h : Tailed mark s) : s ≠ [] := by
  rintro rfl
  rcases h with h | h
  · exact List.cons_ne_nil _ _ (List.suffix_nil.mp h)
  · cases h

/-! ### Strings -/

theorem hexValue_ne {c : Char} {n : ℕ} (h : hexValue c = some n) : c ≠ '\n' := by
  rintro rfl
  cases h

theorem readHex4_passes {n : ℕ} (h : readHex4 s = some (n, rest)) :
    ∃ u, s = u ++ rest ∧ '\n' ∉ u := by
  unfold readHex4 at h
  split at h
  · next a b c d s' =>
    split at h
    · next ha hb hc hd =>
      obtain ⟨-, rfl⟩ := Prod.mk.inj (Option.some.inj h)
      refine ⟨[a, b, c, d], rfl, ?_⟩
      simp [(hexValue_ne ha).symm, (hexValue_ne hb).symm, (hexValue_ne hc).symm,
        (hexValue_ne hd).symm]
    · cases h
  · cases h

theorem readUnicode_passes {c : Char} (h : readUnicode s = some (c, rest)) :
    ∃ u, s = u ++ rest ∧ '\n' ∉ u := by
  unfold readUnicode at h
  split at h
  · next n rest₁ hfirst =>
    obtain ⟨u, rfl, hu⟩ := readHex4_passes hfirst
    split at h
    · split at h
      · next rest₂ =>
        split at h
        · next m rest₃ hsecond =>
          obtain ⟨w, rfl, hw⟩ := readHex4_passes hsecond
          split at h
          · obtain ⟨-, rfl⟩ := Prod.mk.inj (Option.some.inj h)
            refine ⟨u ++ '\\' :: 'u' :: w, by simp, ?_⟩
            simp [hu, hw]
          · cases h
        · cases h
      · cases h
    · split at h
      · cases h
      · obtain ⟨-, rfl⟩ := Prod.mk.inj (Option.some.inj h)
        exact ⟨u, rfl, hu⟩
  · cases h

theorem readEscape_passes {c : Char} (h : readEscape s = some (c, rest)) :
    ∃ u, s = u ++ rest ∧ '\n' ∉ u := by
  unfold readEscape at h
  split at h
  · cases h
  · obtain ⟨u, rfl, hu⟩ := readUnicode_passes h
    exact ⟨'u' :: u, rfl, by simp [hu]⟩
  · next c' s' _ =>
    obtain ⟨x, hx, heq⟩ := Option.map_eq_some_iff.mp h
    obtain ⟨-, rfl⟩ := Prod.mk.inj heq
    refine ⟨[c'], rfl, ?_⟩
    intro hmem
    rw [← List.mem_singleton.mp hmem] at hx
    cases hx

theorem readChars_marked {fuel : ℕ} {cs : List Char} (h : Marked mark s)
    (hread : readChars fuel s = some (cs, rest)) : Marked mark rest := by
  fun_induction readChars fuel s generalizing cs with
  | case1 => cases hread
  | case2 => cases hread
  | case3 s fuel =>
    obtain ⟨-, rfl⟩ := Prod.mk.inj (Option.some.inj hread)
    exact h.tail (by decide)
  | case4 s fuel c rest' hescape ih =>
    obtain ⟨p, hp, heq⟩ := Option.map_eq_some_iff.mp hread
    obtain ⟨-, rfl⟩ := Prod.mk.inj heq
    obtain ⟨u, rfl, hu⟩ := readEscape_passes hescape
    exact ih ((h.tail (by decide)).of_append hu) hp
  | case5 => cases hread
  | case6 => cases hread
  | case7 c s fuel hquote hback hcontrol ih =>
    obtain ⟨p, hp, heq⟩ := Option.map_eq_some_iff.mp hread
    obtain ⟨-, rfl⟩ := Prod.mk.inj heq
    refine ih (h.tail ?_) hp
    rintro rfl
    exact hcontrol (by decide)

theorem readString_marked {str : String} (h : Marked mark s)
    (hread : readString s = some (str, rest)) : Marked mark rest := by
  obtain ⟨p, hp, heq⟩ := Option.map_eq_some_iff.mp hread
  obtain ⟨-, rfl⟩ := Prod.mk.inj heq
  exact readChars_marked h hp

/-! ### Numbers -/

/-- A text of number characters, and something after it. -/
def Numeral (u : List Char) : Prop := ∀ c ∈ u, isNumberChar c = true

theorem numeral_takeWhile (s : List Char) : Numeral (s.takeWhile Char.isDigit) := by
  intro c hc
  rw [isNumberChar, List.mem_takeWhile_imp hc]
  rfl

theorem numeral_scanNatural {p : List Char × List Char} (h : scanNatural s = some p) :
    Numeral p.1 := by
  unfold scanNatural at h
  split at h
  · obtain rfl := Option.some.inj h
    intro c hc
    rw [List.mem_singleton.mp hc]
    rfl
  · split at h
    · obtain rfl := Option.some.inj h
      exact numeral_takeWhile _
    · cases h
  · cases h

theorem numeral_scanInteger {p : List Char × List Char} (h : scanInteger s = some p) :
    Numeral p.1 := by
  unfold scanInteger at h
  split at h
  · obtain ⟨q, hq, rfl⟩ := Option.map_eq_some_iff.mp h
    intro c hc
    rcases List.mem_cons.mp hc with rfl | hc
    · rfl
    · exact numeral_scanNatural hq c hc
  · exact numeral_scanNatural h

theorem scanNatural_ne_nil {p : List Char × List Char} (h : scanNatural s = some p) :
    p.1 ≠ [] := by
  unfold scanNatural at h
  split at h
  · obtain rfl := Option.some.inj h
    exact List.cons_ne_nil _ _
  · split at h
    · next hdigit =>
      obtain rfl := Option.some.inj h
      rw [spanOf, List.takeWhile_cons_of_pos hdigit]
      exact List.cons_ne_nil _ _
    · cases h
  · cases h

theorem scanInteger_ne_nil {p : List Char × List Char} (h : scanInteger s = some p) :
    p.1 ≠ [] := by
  unfold scanInteger at h
  split at h
  · obtain ⟨q, -, rfl⟩ := Option.map_eq_some_iff.mp h
    exact List.cons_ne_nil _ _
  · exact scanNatural_ne_nil h

theorem numeral_scanFraction (s : List Char) : Numeral (scanFraction s).1 := by
  unfold scanFraction
  split
  · split
    · exact fun c hc => absurd hc List.not_mem_nil
    · intro c hc
      rcases List.mem_cons.mp hc with rfl | hc
      · rfl
      · exact numeral_takeWhile _ c hc
  · exact fun c hc => absurd hc List.not_mem_nil

theorem numeral_scanSign (s : List Char) : Numeral (scanSign s).1 := by
  unfold scanSign
  split
  · split
    · next hsign =>
      intro c hc
      rw [List.mem_singleton.mp hc]
      rcases hsign with rfl | rfl <;> rfl
    · exact fun c hc => absurd hc List.not_mem_nil
  · exact fun c hc => absurd hc List.not_mem_nil

theorem numeral_scanExponent (s : List Char) : Numeral (scanExponent s).1 := by
  unfold scanExponent
  split
  · split
    · next hexponent =>
      intro c hc
      rcases List.mem_append.mp hc with hc | hc
      · rcases List.mem_cons.mp hc with rfl | hc
        · rcases hexponent.1 with rfl | rfl <;> rfl
        · exact numeral_scanSign _ c hc
      · exact numeral_takeWhile _ c hc
    · exact fun c hc => absurd hc List.not_mem_nil
  · exact fun c hc => absurd hc List.not_mem_nil

theorem afterConstant_passes {word : List Char} (h : afterConstant word s = some rest) :
    s = word ++ rest := by
  unfold afterConstant at h
  split at h
  · next hprefix =>
    obtain ⟨t, rfl⟩ := List.isPrefixOf_iff_prefix.mp hprefix
    obtain rfl := Option.some.inj h
    rw [List.drop_left]
  · cases h

/-- A number passes no line break and no bracket. -/
theorem readNumber_passes {v : Value} (h : readNumber s = some (v, rest)) :
    ∃ u, s = u ++ rest ∧ u ≠ [] ∧ ∀ c ∈ u, c ≠ '\n' ∧ c ≠ '[' := by
  unfold readNumber at h
  split at h
  · next rest' hscan =>
    obtain ⟨q, hq, heq⟩ := Option.map_eq_some_iff.mp hscan
    obtain ⟨hp, -⟩ := Prod.mk.inj heq
    obtain ⟨rfl, rfl⟩ := Prod.mk.inj hp
    have hnumeral : Numeral (q.1 ++ ((scanFraction q.2).1 ++ (scanExponent (scanFraction q.2).2).1)) := by
      intro c hc
      rcases List.mem_append.mp hc with hc | hc
      · exact numeral_scanInteger hq c hc
      · rcases List.mem_append.mp hc with hc | hc
        · exact numeral_scanFraction _ c hc
        · exact numeral_scanExponent _ c hc
    have hrest : rest' = rest := by
      split at h
      · exact (Prod.mk.inj (Option.some.inj h)).2
      · split at h
        · exact (Prod.mk.inj (Option.some.inj h)).2
        · cases h
    subst hrest
    refine ⟨_, (scanNumber_append hscan).symm, ?_, ?_⟩
    · exact fun hnil => scanInteger_ne_nil hq (List.append_eq_nil_iff.mp hnil).1
    · intro c hc
      have hnumber := hnumeral c hc
      constructor <;> · rintro rfl; cases hnumber
  · split at h
    · next hword =>
      obtain ⟨-, rfl⟩ := Prod.mk.inj (Option.some.inj h)
      exact ⟨_, afterConstant_passes hword, List.cons_ne_nil _ _, by simp⟩
    · next hword _ =>
      obtain ⟨-, rfl⟩ := Prod.mk.inj (Option.some.inj h)
      exact ⟨_, afterConstant_passes hword, List.cons_ne_nil _ _, by simp⟩
    · next hword _ _ =>
      obtain ⟨-, rfl⟩ := Prod.mk.inj (Option.some.inj h)
      exact ⟨_, afterConstant_passes hword, List.cons_ne_nil _ _, by simp⟩
    · cases h

/-! ### Values -/

/-- No value starts with a `T`. -/
theorem readItems_upper (fuel : ℕ) (s : List Char) : readItems fuel ('T' :: s) = none := by
  have hvalue : ∀ fuel, readValue fuel ('T' :: s) = none := by
    intro fuel
    cases fuel with
    | zero => rfl
    | succ fuel =>
      rw [readValue_number (by decide)]
      rfl
  cases fuel with
  | zero => rfl
  | succ fuel => rw [readItems, hvalue]

/-- What is left behind a value, items or members ends in the mark, if the text did. -/
theorem marked_of_read (mark : List Char) (fuel : ℕ) :
    (∀ ⦃s v rest⦄, Tailed mark s → readValue fuel s = some (v, rest) → Marked mark rest) ∧
      (∀ ⦃s items rest⦄, Tailed mark s → readItems fuel s = some (items, rest) →
        Marked mark rest) ∧
      ∀ ⦃s members rest⦄, Tailed mark s → readMembers fuel s = some (members, rest) →
        Marked mark rest := by
  induction fuel with
  | zero =>
    refine ⟨?_, ?_, ?_⟩ <;>
    · intro s v rest hs h
      cases h
  | succ fuel ih =>
    obtain ⟨ihValue, ihItems, ihMembers⟩ := ih
    refine ⟨?_, ?_, ?_⟩
    · intro s v rest hs h
      unfold readValue at h
      split at h
      · -- a string
        obtain ⟨p, hp, heq⟩ := Option.map_eq_some_iff.mp h
        obtain ⟨-, rfl⟩ := Prod.mk.inj heq
        exact readString_marked (hs.tail (by decide) (by decide)) hp
      · -- an array, which the mark would start as well
        next s' =>
        rcases hs with hs | hs
        · have hskip := (hs.tail (by decide)).skip
          split at h
          · next heq =>
            obtain ⟨-, rfl⟩ := Prod.mk.inj (Option.some.inj h)
            rw [heq] at hskip
            exact hskip.tail (by decide) (by decide)
          · obtain ⟨p, hp, heq⟩ := Option.map_eq_some_iff.mp h
            obtain ⟨-, rfl⟩ := Prod.mk.inj heq
            exact ihItems hskip hp
        · obtain rfl := (List.cons.inj hs).2
          rw [skip_cons (by decide)] at h
          change (readItems fuel ('T' :: mark)).map _ = _ at h
          rw [readItems_upper] at h
          cases h
      · -- an object
        have hskip := (hs.tail (by decide) (by decide)).skip
        split at h
        · next heq =>
          obtain ⟨-, rfl⟩ := Prod.mk.inj (Option.some.inj h)
          rw [heq] at hskip
          exact hskip.tail (by decide) (by decide)
        · obtain ⟨p, hp, heq⟩ := Option.map_eq_some_iff.mp h
          obtain ⟨-, rfl⟩ := Prod.mk.inj heq
          exact ihMembers hskip hp
      · obtain ⟨-, rfl⟩ := Prod.mk.inj (Option.some.inj h)
        exact Tailed.of_append (u := ['n', 'u', 'l', 'l']) hs (List.cons_ne_nil _ _) (by simp)
      · obtain ⟨-, rfl⟩ := Prod.mk.inj (Option.some.inj h)
        exact Tailed.of_append (u := ['t', 'r', 'u', 'e']) hs (List.cons_ne_nil _ _) (by simp)
      · obtain ⟨-, rfl⟩ := Prod.mk.inj (Option.some.inj h)
        exact Tailed.of_append (u := ['f', 'a', 'l', 's', 'e']) hs (List.cons_ne_nil _ _) (by simp)
      · obtain ⟨u, rfl, hne, hu⟩ := readNumber_passes h
        exact hs.of_append hne hu
    · intro s items rest hs h
      unfold readItems at h
      split at h
      · cases h
      · next hvalue =>
        have hskip := (ihValue hs hvalue).skip
        split at h
        · next heq =>
          obtain ⟨-, rfl⟩ := Prod.mk.inj (Option.some.inj h)
          rw [heq] at hskip
          exact hskip.tail (by decide) (by decide)
        · next heq =>
          rw [heq] at hskip
          obtain ⟨p, hp, heq⟩ := Option.map_eq_some_iff.mp h
          obtain ⟨-, rfl⟩ := Prod.mk.inj heq
          exact ihItems (hskip.tail (by decide) (by decide)).skip hp
        · cases h
    · intro s members rest hs h
      unfold readMembers at h
      split at h
      · split at h
        · cases h
        · next hkey =>
          have hskip := (readString_marked (hs.tail (by decide) (by decide)) hkey).skip
          split at h
          · next heq =>
            rw [heq] at hskip
            have hcolon := (hskip.tail (by decide) (by decide)).skip
            split at h
            · cases h
            · next hvalue =>
              have hbehind := (ihValue hcolon hvalue).skip
              split at h
              · next heq =>
                obtain ⟨-, rfl⟩ := Prod.mk.inj (Option.some.inj h)
                rw [heq] at hbehind
                exact hbehind.tail (by decide) (by decide)
              · next heq =>
                rw [heq] at hbehind
                obtain ⟨p, hp, heq⟩ := Option.map_eq_some_iff.mp h
                obtain ⟨-, rfl⟩ := Prod.mk.inj heq
                exact ihMembers (hbehind.tail (by decide) (by decide)).skip hp
              · cases h
          · cases h
      · cases h

/-- **A text that was cut does not read.** -/
theorem read_marked (h : Marked mark s) : read s = none := by
  unfold read
  split
  · next v rest hvalue =>
    have hrest := ((marked_of_read mark _).1 h.skip hvalue).skip
    cases hskip : skip rest with
    | nil => exact absurd hskip hrest.ne_nil
    | cons c t => rfl
  · rfl

end JsonText
