import AiSaas.Kernel.Credentials

/-!
# Texts that cover what follows

What the reading of a text does to a value that stands behind it.  A text covers what
follows when its reading comes to its end inside a credential's value, or in front of one:
then the value goes with the credential.  Else the value's last character stays in the
redacted text.

## Main definitions

* `Covers` — the reading of a text takes a value that stands behind it.
* `Ready` — a text that ends in a separator and blanks.
* `Mark` — a character that no pattern passes.

## Main results

* `covers_of_clearIn` — what an opening with nothing found in front of it covers.
* `Covers.hides` — a covered value leaves nothing of itself.
* `redactChars_of_not_covers` — a mark behind a text that does not cover it stays.
-/

namespace AiSaas.Kernel

open Redaction Substitution

variable {alnum : Char → Bool} {b b' : Bool} {c z : Char} {l s t u v run rest : List Char}

/-- The reading of a text takes the value behind it: from the left, with keys and whole
credentials taken where it comes to them, it ends inside a value or in front of one. -/
inductive Covers (alnum : Char → Bool) : Bool → List Char → Prop
  | value {l run : List Char} (opening : Opening l) (chars : ∀ c ∈ run, valueChar c = true) :
      Covers alnum false (l ++ run)
  | key {b b' : Bool} {s rest : List Char} (found : keyPattern alnum b s = some (b', rest))
      (next : Covers alnum b' rest) : Covers alnum b s
  | credential {b b' : Bool} {s rest : List Char}
      (found : credentialPattern alnum b s = some (b', rest))
      (next : Covers alnum b' rest) : Covers alnum b s
  | skip {b : Bool} {c : Char} {s : List Char} (nokey : keyPattern alnum b (c :: s) = none)
      (nocredential : credentialPattern alnum b (c :: s) = none)
      (next : Covers alnum (wordChar alnum c) s) : Covers alnum b (c :: s)

/-- The last character that is not blank is a separator. -/
def Ready (s : List Char) : Prop := ∀ p c y, s = p ++ c :: y → (∀ d ∈ y, isSpace d = true) →
  isSpace c = false → isSep c = true

/-- A character that is part of a value and of nothing else. -/
structure Mark (alnum : Char → Bool) (z : Char) : Prop where
  value : valueChar z = true
  key : keyChar z = false
  sep : isSep z = false
  word : wordChar alnum z = false

/-! ### Openings -/

theorem Opening.ne_nil (h : Opening l) : l ≠ [] := by
  obtain ⟨u, x, sep, y, hu, -, -, -, rfl⟩ := h
  exact List.append_ne_nil_of_left_ne_nil hu.ne_nil _

theorem Opening.chars (h : Opening l) :
    ∀ c ∈ l, keyChar c = true ∨ isSpace c = true ∨ isSep c = true := by
  obtain ⟨u, x, sep, y, hu, hx, hsep, hy, rfl⟩ := h
  intro c hc
  rcases List.mem_append.mp hc with hc | hc
  · exact Or.inl (hu.keyChar hc)
  · rcases List.mem_append.mp hc with hc | hc
    · exact Or.inr (Or.inl (hx c hc))
    · rcases List.mem_cons.mp hc with rfl | hc
      · exact Or.inr (Or.inr hsep)
      · exact Or.inr (Or.inl (hy c hc))

theorem Ready.suffix (h : Ready (u ++ s)) : Ready s := by
  intro p c y hs
  refine h (u ++ p) c y ?_
  rw [hs, List.append_assoc]

/-- A name is no text that ends in a separator, with blanks behind it or not. -/
theorem not_ready {y : List Char} (hne : u ≠ []) (hu : ∀ c ∈ u, keyChar c = true)
    (hy : ∀ c ∈ y, isSpace c = true) : ¬ Ready (u ++ y) := by
  intro h
  rcases List.eq_nil_or_concat u with rfl | ⟨p, c, rfl⟩
  · exact hne rfl
  · rw [List.concat_eq_append] at h hu
    have hkey := hu c (by simp)
    have hsep := h p c y (by simp) hy (isSpace_of_valueChar (valueChar_of_keyChar hkey).1)
    rw [keyChar_of_isSep hsep] at hkey
    cases hkey

/-- No name and separator begin in a text that ends in a separator and end behind it, where
a value stands. -/
theorem Ready.apart (h : Ready s) (hne : s ≠ []) (hc : valueChar c = true) (a : List Char) :
    ¬ Opening (s ++ c :: a) := by
  rintro ⟨u, x, sep, y, hu, hx, hsep, hy, heq⟩
  have hspace : ∀ {y : List Char}, (∀ d ∈ y, isSpace d = true) → c ∉ y := by
    intro y hy hmem
    have hblank := hy c hmem
    rw [isSpace_of_valueChar hc] at hblank
    cases hblank
  rcases List.append_eq_append_iff.mp heq with ⟨u', rfl, -⟩ | ⟨a', rfl, hrest⟩
  · refine not_ready hne (fun d hd => hu.keyChar (List.mem_append_left _ hd))
      (fun d hd => absurd hd List.not_mem_nil) ?_
    rwa [List.append_nil]
  · rcases List.append_eq_append_iff.mp hrest with ⟨a'', rfl, hsign⟩ | ⟨x', rfl, hsign⟩
    · cases a'' with
      | nil =>
        rw [List.append_nil] at h
        exact not_ready hu.ne_nil (fun d => hu.keyChar) hx h
      | cons d a'' =>
        obtain ⟨rfl, rfl⟩ := List.cons.inj hsign
        exact hspace hy (by simp)
    · exact not_ready hu.ne_nil (fun d => hu.keyChar)
        (fun d hd => hx d (List.mem_append_left _ hd)) h

theorem Mark.apart (h : Mark alnum z) (s a : List Char) : ¬ Opening (s ++ z :: a) := by
  intro hopening
  rcases hopening.chars z (by simp) with hkey | hspace | hsep
  · rw [h.key] at hkey
    cases hkey
  · rw [isSpace_of_valueChar h.value] at hspace
    cases hspace
  · rw [h.sep] at hsep
    cases hsep

/-! ### Matches and what is behind the text -/

/-- Behind a character of no key a text may go on. -/
theorem keyPattern_append (hne : s ≠ []) (hs : ∀ c ∈ s.getLast?, keyChar c = false)
    (t : List Char) :
    keyPattern alnum b (s ++ t) = (keyPattern alnum b s).map fun r => (r.1, r.2 ++ t) := by
  rcases List.eq_nil_or_concat s with rfl | ⟨l, z, rfl⟩
  · exact absurd rfl hne
  · rw [List.concat_eq_append] at hs ⊢
    rw [List.append_assoc, List.singleton_append]
    exact (bars_keyPattern (hs z (by simp))).extend b l t

/-- A value that has ended stays the same, whatever is behind the text. -/
theorem credentialPattern_append (h : credentialPattern alnum b s = some (b', rest))
    (hne : rest ≠ []) (t : List Char) :
    credentialPattern alnum b (s ++ t) = some (b', rest ++ t) := by
  obtain ⟨rfl, l, v, hl, hv, hrest, rfl, hb⟩ := credentialPattern_eq_some.mp h
  refine credentialPattern_eq_some.mpr ⟨rfl, l, v, hl, hv, ?_, by simp, hb⟩
  obtain ⟨d, rest, rfl⟩ := List.exists_cons_of_ne_nil hne
  exact hrest

/-- Where no credential is found, and no value begins, none is found with a value behind the
text. -/
theorem credentialPattern_append_none (hnone : credentialPattern alnum b s = none)
    (hfront : ∀ l run, Opening l → (∀ c ∈ run, valueChar c = true) → s = l ++ run → b = true)
    (hapart : ∀ a, ¬ Opening (s ++ c :: a)) (t : List Char) :
    credentialPattern alnum b (s ++ c :: t) = none := by
  rw [Option.eq_none_iff_forall_ne_some]
  rintro ⟨b', rest⟩ hr
  obtain ⟨rfl, l, v, hl, hv, hrest, heq, -⟩ := credentialPattern_eq_some.mp hr
  have hno : ∀ run, (∀ c ∈ run, valueChar c = true) → s ≠ l ++ run := by
    intro run hrun hs
    cases hfront l run hl hrun hs
  rcases List.append_eq_append_iff.mp heq with ⟨a, rfl, htail⟩ | ⟨a, rfl, htail⟩
  · cases a with
    | nil => exact hno [] (by simp) (by simp)
    | cons d a =>
      obtain ⟨rfl, -⟩ := List.cons.inj htail
      exact hapart a hl
  · rcases List.append_eq_append_iff.mp htail with ⟨a', rfl, rfl⟩ | ⟨v', rfl, -⟩
    · cases a' with
      | nil => exact hno v hv.2 (by simp)
      | cons d a' =>
        have hfound : credentialPattern alnum false (l ++ (v ++ d :: a')) =
            some (after (wordChar alnum) false (l ++ v), d :: a') :=
          credentialPattern_eq_some.mpr ⟨rfl, l, v, hl, hv, fun x hx => hrest x hx, rfl, rfl⟩
        rw [hnone] at hfound
        cases hfound
    · exact hno a (fun d hd => hv.2 d (List.mem_append_left _ hd)) rfl

/-- A text without a match covers what follows the opening behind it. -/
theorem covers_of_clearIn (hl : Opening l)
    (hkey : ClearIn (wordChar alnum) (keyPattern alnum) b u l)
    (hcredential : ClearIn (wordChar alnum) (credentialPattern alnum) b u l)
    (hafter : after (wordChar alnum) b u = false) : Covers alnum b (u ++ l) := by
  induction u generalizing b with
  | nil =>
    obtain rfl : b = false := hafter
    rw [List.nil_append, ← List.append_nil l]
    exact .value hl (by simp)
  | cons c u ih => exact .skip hkey.1 hcredential.1 (ih hkey.2 hcredential.2 hafter)

theorem not_covers_nil : ¬ Covers alnum b [] := by
  intro h
  generalize hs : ([] : List Char) = s at h
  induction h with
  | value hl hrun => exact hl.ne_nil (List.append_eq_nil_iff.mp hs.symm).1
  | key hfound hnext ih =>
    subst hs
    rw [lawful_key.none_of_head (by simp)] at hfound
    cases hfound
  | credential hfound hnext ih =>
    subst hs
    rw [lawful_credential.none_of_head (by simp)] at hfound
    cases hfound
  | skip hkey hcredential hnext ih => cases hs

/-! ### Covered values -/

theorem Ready.last (h : Ready s) : ∀ c ∈ s.getLast?, keyChar c = false := by
  intro c hc
  obtain ⟨l, rfl⟩ := List.getLast?_eq_some_iff.mp hc
  cases hspace : isSpace c with
  | true => exact keyChar_of_isSpace hspace
  | false => exact keyChar_of_isSep (h l c [] rfl (by simp) hspace)

/-- A value behind a text that opens a credential goes with what is already there of it. -/
theorem reads_value {r : List Char} (hl : Opening l) (hrun : ∀ c ∈ run, valueChar c = true)
    (hv : Filled v) (ht : Ends t) (h : Reads alnum false t r) :
    Reads alnum false (l ++ run ++ (v ++ t)) (credentialToken ++ r) := by
  refine .credential (credentialPattern_eq_some.mpr
    ⟨rfl, l, run ++ v, hl, ⟨?_, ?_⟩, ht, by simp, rfl⟩) (h.behind ht.word _)
  · exact List.append_ne_nil_of_right_ne_nil run hv.1
  · intro c hc
    rcases List.mem_append.mp hc with hc | hc
    · exact hrun c hc
    · exact hv.2 c hc

/-- **A covered value leaves nothing of itself**: what the text is read as does not depend
on it, and what stands behind it is read as it is alone. -/
theorem Covers.hides (h : Covers alnum b s) (hs : Ready s) : ∃ w, ∀ v t r, Filled v → Ends t →
    Reads alnum false t r → Reads alnum b (s ++ (v ++ t)) (w ++ r) := by
  induction h with
  | @value l run hl hrun => exact ⟨credentialToken, fun v t r hv ht => reads_value hl hrun hv ht⟩
  | @key b b' s rest hfound hnext ih =>
    obtain ⟨-, p, k, u, heq, -⟩ := keyPattern_chars hfound
    have hne : s ≠ [] := by simp [heq]
    obtain ⟨w, hw⟩ := ih (heq ▸ hs).suffix
    refine ⟨keyToken ++ w, fun v t r hv ht hr => ?_⟩
    rw [List.append_assoc]
    refine .key ?_ (hw v t r hv ht hr)
    rw [keyPattern_append hne hs.last, hfound, Option.map_some]
  | @credential b b' s rest hfound hnext ih =>
    have hne : rest ≠ [] := by
      rintro rfl
      exact not_covers_nil hnext
    have hmatch := credentialPattern_append hfound hne
    obtain ⟨-, l, v₁, -, -, -, rfl, -⟩ := credentialPattern_eq_some.mp hfound
    rw [← List.append_assoc] at hs
    obtain ⟨w, hw⟩ := ih hs.suffix
    refine ⟨credentialToken ++ w, fun v t r hv ht hr => ?_⟩
    rw [List.append_assoc credentialToken]
    exact .credential (hmatch (v ++ t)) (hw v t r hv ht hr)
  | @skip b c s hkey hcredential hnext ih =>
    by_cases hfront : ∃ l run, Opening l ∧ (∀ d ∈ run, valueChar d = true) ∧
        c :: s = l ++ run ∧ b = false
    · obtain ⟨l, run, hl, hrun, heq, rfl⟩ := hfront
      refine ⟨credentialToken, fun v t r hv ht hr => ?_⟩
      rw [heq]
      exact reads_value hl hrun hv ht hr
    · obtain ⟨w, hw⟩ := ih (Ready.suffix (u := [c]) hs)
      refine ⟨c :: w, fun v t r hv ht hr => .keep ?_ ?_ (hw v t r hv ht hr)⟩
      · have happend : keyPattern alnum b (c :: s ++ (v ++ t)) = _ :=
          keyPattern_append (List.cons_ne_nil c s) hs.last (v ++ t)
        rw [hkey] at happend
        exact happend
      · obtain ⟨d, v, rfl⟩ := List.exists_cons_of_ne_nil hv.1
        refine credentialPattern_append_none hcredential ?_
          (hs.apart (List.cons_ne_nil c s) (hv.2 d List.mem_cons_self)) (v ++ t)
        intro l run hl hrun heq
        rw [← Bool.not_eq_false]
        exact fun hb => hfront ⟨l, run, hl, hrun, heq, hb⟩

/-! ### Values that are told -/

/-- The last character of a text is that of what it ends with. -/
theorem last_suffix (heq : s = u ++ rest) (hs : ∀ c ∈ s.getLast?, keyChar c = false) :
    ∀ c ∈ rest.getLast?, keyChar c = false := by
  intro c hc
  refine hs c ?_
  rw [heq, List.getLast?_append, Option.mem_def.mp hc]
  rfl

/-- A mark behind a text that does not cover it is read as it is. -/
theorem reads_mark (hz : Mark alnum z) (hs : ∀ c ∈ s.getLast?, keyChar c = false)
    (h : ¬ Covers alnum b s) : ∃ w, Reads alnum b (s ++ [z]) (w ++ [z]) := by
  induction b, s using reading_induction alnum with
  | nil b =>
    have hword : ∀ c ∈ [z].head?, wordChar alnum c = false := by
      simpa using hz.word
    exact ⟨[], .keep (lawful_key.none_of_head hword b) (lawful_credential.none_of_head hword b)
      (.nil _)⟩
  | key b s b' rest hfound ih =>
    obtain ⟨-, p, k, u, heq, -⟩ := keyPattern_chars hfound
    have hne : s ≠ [] := by simp [heq]
    obtain ⟨w, hw⟩ := ih (last_suffix heq hs) fun hnext => h (.key hfound hnext)
    refine ⟨keyToken ++ w, ?_⟩
    rw [List.append_assoc]
    refine .key ?_ hw
    rw [keyPattern_append hne hs, hfound, Option.map_some]
  | credential b s b' rest hfound ih =>
    obtain ⟨rfl, l, v, hl, hv, -, heq, -⟩ := credentialPattern_eq_some.mp hfound
    -- a value that ends with the text would cover the mark
    have hne : rest ≠ [] := by
      rintro rfl
      rw [List.append_nil] at heq
      rw [heq] at h
      exact h (.value hl hv.2)
    obtain ⟨w, hw⟩ := ih (last_suffix (heq.trans (List.append_assoc l v rest).symm) hs)
      fun hnext => h (.credential hfound hnext)
    refine ⟨credentialToken ++ w, ?_⟩
    rw [List.append_assoc]
    exact .credential (credentialPattern_append hfound hne [z]) hw
  | keep b c s hkey hcredential ih =>
    obtain ⟨w, hw⟩ := ih (last_suffix (u := [c]) rfl hs) fun hnext =>
      h (.skip hkey hcredential hnext)
    refine ⟨c :: w, .keep ?_ ?_ hw⟩
    · have happend : keyPattern alnum b (c :: s ++ [z]) = _ :=
        keyPattern_append (List.cons_ne_nil c s) hs [z]
      rw [hkey] at happend
      exact happend
    · refine credentialPattern_append_none hcredential ?_ (hz.apart _) []
      intro l run hl hrun heq
      rw [← Bool.not_eq_false]
      rintro rfl
      rw [heq] at h
      exact h (.value hl hrun)

/-- The last pattern does not pass a mark. -/
theorem bars_sensitivePattern (hz : Mark alnum z) : Bars (sensitivePattern alnum) z := by
  have hspelling : ∀ word ∈ sensitiveWords, word.all (fun q => Decidable.decide (spelling q = true)) = true := by
    decide +kernel
  have hspace : Bars (many (wordChar alnum) isSpace) z := bars_many (isSpace_of_valueChar hz.value)
  have hdecimal : (decimal z).isSome = false := by
    have hword := hz.word
    simp only [wordChar, Bool.or_eq_false_iff] at hword
    exact hword.1.2
  refine Bars.atBoundary (bars_alternatives fun p hp => ?_)
  obtain ⟨text, htext, rfl⟩ := List.mem_map.mp hp
  refine Bars.seq (bars_spell fun f hf => ?_) (Bars.seq (hspace.seq (Bars.seq (bars_spell ?_) hspace))
    (bars_runTail (f := fun c => (decimal c).isSome) hdecimal _ _))
  · obtain ⟨q, hq, rfl⟩ := List.mem_map.mp hf
    have hletter := forall_mem_of_all (hspelling text htext) q hq
    by_contra hsame
    rw [Bool.not_eq_false, sameLetter_iff hletter] at hsame
    rw [← hsame] at hletter
    have hkey := keyChar_of_folded hletter
    rw [hz.key] at hkey
    cases hkey
  · simpa only [List.forall_mem_singleton, isSep, Bool.or_comm] using hz.sep

/-- **A mark behind a text that does not cover it stays** where it is. -/
theorem redactChars_of_not_covers (hz : Mark alnum z) (hs : ∀ c ∈ s.getLast?, keyChar c = false)
    (h : ¬ Covers alnum false s) : ∃ w, redactChars alnum (s ++ [z]) = w ++ [z] := by
  obtain ⟨w, hw⟩ := reads_mark hz hs h
  rw [redactChars_eq hw]
  exact (rewrites_substitute behind_sensitive.lawful (w ++ [z])).last (bars_sensitivePattern hz)
    behind_sensitive.lawful

end AiSaas.Kernel
