import Mathlib.Data.List.Basic
import Mathlib.Data.List.Infix
import Mathlib.Data.List.Sort

/-!
# Numbered logs

One list holds the entries of many streams.  Each entry names its stream and
carries a number, and each stream counts its entries.  A log is gapless when the
numbers of every stream are `1` up to its count, in order; a reader that has seen
the first `n` of them is then served by asking for what is numbered above `n`.

## Main definitions

* `ofStream stream k l` — the entries of one stream.
* `Gapless stream number l count` — every stream is numbered without a gap.
* `above stream number k n l` — the entries of a stream numbered above `n`.
* `Linked a changes b` — changes that lead from one value to another, end to end.

## Main results

* `Gapless.concat` — appending the next entry of a stream keeps the log gapless.
* `Gapless.above_eq_drop` — what is numbered above `n` is all but the first `n`.
-/

namespace NumberedLog

variable {ε κ : Type*} [DecidableEq κ] {stream : ε → κ} {number : ε → ℕ} {l l' : List ε}
  {count count' : κ → ℕ}

/-- The entries of a stream, in the order they were written. -/
def ofStream (stream : ε → κ) (k : κ) (l : List ε) : List ε :=
  l.filter fun e => decide (stream e = k)

/-- The entries of every stream carry the numbers from one to its count. -/
def Gapless (stream : ε → κ) (number : ε → ℕ) (l : List ε) (count : κ → ℕ) : Prop :=
  ∀ k, (ofStream stream k l).map number = List.range' 1 (count k)

/-- The entries of a stream numbered above `n`. -/
def above (stream : ε → κ) (number : ε → ℕ) (k : κ) (n : ℤ) (l : List ε) : List ε :=
  l.filter fun e => decide (stream e = k ∧ n < number e)

theorem ofStream_concat (k : κ) (l : List ε) (e : ε) :
    ofStream stream k (l ++ [e]) = ofStream stream k l ++ if stream e = k then [e] else [] := by
  unfold ofStream
  rw [List.filter_append]
  by_cases hk : stream e = k <;> simp [hk]

/-- A stream's entries stay in front when the log is extended. -/
theorem isPrefix_ofStream (h : l <+: l') (k : κ) : ofStream stream k l <+: ofStream stream k l' := by
  obtain ⟨rest, rfl⟩ := h
  exact ⟨ofStream stream k rest, (List.filter_append _ _).symm⟩

/-- Streams counted alike are numbered alike. -/
theorem Gapless.congr (h : Gapless stream number l count) (hcount : ∀ k, count' k = count k) :
    Gapless stream number l count' := by
  intro k
  rw [hcount k]
  exact h k

/-- **The next entry of a stream keeps the log gapless.** -/
theorem Gapless.concat (h : Gapless stream number l count) {e : ε}
    (hnumber : number e = count (stream e) + 1)
    (hcount : ∀ k, count' k = if k = stream e then count k + 1 else count k) :
    Gapless stream number (l ++ [e]) count' := by
  intro k
  rw [ofStream_concat, List.map_append, h k, hcount k]
  by_cases hk : stream e = k
  · subst hk
    rw [if_pos rfl, if_pos rfl, List.map_singleton, hnumber, List.range'_concat]
    simp [Nat.add_comm]
  · rw [if_neg hk, if_neg (Ne.symm hk), List.map_nil, List.append_nil]

theorem Gapless.length_eq (h : Gapless stream number l count) (k : κ) :
    (ofStream stream k l).length = count k := by
  have hlen := congrArg List.length (h k)
  simpa using hlen

/-- An entry of a gapless log is numbered within its stream's count. -/
theorem Gapless.number_mem (h : Gapless stream number l count) {e : ε} (he : e ∈ l) :
    1 ≤ number e ∧ number e ≤ count (stream e) := by
  have hmem : number e ∈ (ofStream stream (stream e) l).map number :=
    List.mem_map_of_mem (List.mem_filter.mpr ⟨he, by simp⟩)
  rw [h, List.mem_range'_1] at hmem
  omega

/-- What is numbered above `n` in a list numbered from `m + 1` on is all but its
first `n - m`. -/
private theorem filter_eq_drop : ∀ {l : List ε} {m n c : ℕ}, l.map number = List.range' (m + 1) c →
    m ≤ n → (l.filter fun e => decide ((n : ℤ) < number e)) = l.drop (n - m) := by
  intro l
  induction l with
  | nil => intro m n c _ _; simp
  | cons e l ih =>
    intro m n c hnum hmn
    cases c with
    | zero => simp at hnum
    | succ c =>
      rw [List.map_cons, List.range'_succ, List.cons.injEq] at hnum
      by_cases hn : n = m
      · -- every later number is larger still
        have hall : ∀ x ∈ e :: l, (n : ℤ) < number x := by
          intro x hx
          rcases List.mem_cons.mp hx with rfl | hx
          · omega
          · have hmem := hnum.2 ▸ List.mem_map_of_mem (f := number) hx
            rw [List.mem_range'_1] at hmem
            omega
        rw [hn, Nat.sub_self, List.drop_zero, List.filter_eq_self.mpr]
        intro x hx
        exact decide_eq_true (hn ▸ hall x hx)
      · have hhead : ¬ (n : ℤ) < number e := by omega
        have hdrop : n - m = n - (m + 1) + 1 := by omega
        rw [List.filter_cons_of_neg (by simpa using hhead), hdrop, List.drop_succ_cons]
        exact ih hnum.2 (by omega)

/-- **Reading above `n`** skips the first `n` entries of the stream and no other. -/
theorem Gapless.above_eq_drop (h : Gapless stream number l count) (k : κ) (n : ℕ) :
    above stream number k n l = (ofStream stream k l).drop n := by
  have hsplit : above stream number k n l
      = (ofStream stream k l).filter fun e => decide ((n : ℤ) < number e) := by
    unfold above ofStream
    rw [List.filter_filter]
    apply List.filter_congr
    intro e _
    simp [Bool.and_comm]
  rw [hsplit, filter_eq_drop (m := 0) (by simpa using h k) (Nat.zero_le n), Nat.sub_zero]

/-- The entries above `n` carry the numbers from `n + 1` to the count. -/
theorem Gapless.map_above (h : Gapless stream number l count) (k : κ) (n : ℕ) :
    (above stream number k n l).map number = List.range' (n + 1) (count k - n) := by
  rw [h.above_eq_drop, List.map_drop, h k, List.drop_range']
  congr 1
  omega

/-- They are already in the order of their numbers. -/
theorem Gapless.above_sorted (h : Gapless stream number l count) (k : κ) (n : ℕ) :
    (above stream number k n l).Pairwise fun e e' => number e ≤ number e' := by
  have hlt : ((above stream number k n l).map number).Pairwise (· < ·) := by
    rw [h.map_above]
    exact List.pairwise_lt_range'
  exact (List.pairwise_map.mp hlt).imp Nat.le_of_lt

/-! ### Chains of changes -/

variable {α : Type*}

/-- Each change begins where the one before it has ended. -/
def Linked : α → List (α × α) → α → Prop
  | a, [], b => a = b
  | a, (a', b') :: changes, b => a = a' ∧ Linked b' changes b

/-- **The next change keeps the chain.** -/
theorem Linked.concat {a b c : α} {changes : List (α × α)} (h : Linked a changes b) :
    Linked a (changes ++ [(b, c)]) c := by
  induction changes generalizing a with
  | nil => exact ⟨h, rfl⟩
  | cons change changes ih => exact ⟨h.1, ih h.2⟩

end NumberedLog
