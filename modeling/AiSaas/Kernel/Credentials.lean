import AiSaas.Kernel.Redaction
import AiSaas.RunService.SecretWords

/-!
# What the kernel's patterns find

A match of the credential pattern is a credential's name, a separator with blanks around
it and a value that goes as far as it can; a match of the key pattern is a run of
characters of a key.  As no key begins inside a name, the first two substitutions of
`redact_text` are one reading of the text that takes keys and credentials where it comes
to them.

## Main definitions

* `Credential`, `Opening` — the name of a credential, and what is in front of its value.
* `Filled`, `Ends` — a value, and what stands behind one.
* `Reads` — the reading of a text that takes keys and credentials together.

## Main results

* `credentialPattern_eq_some` — what the credential pattern matches.
* `redactChars_eq` — the first two substitutions are one reading.
-/

namespace AiSaas.Kernel

open Redaction Substitution

variable {alnum : Char → Bool} {b b' : Bool} {c : Char} {l l' s t u v w run rest : List Char}

theorem lawful_key : Lawful (wordChar alnum) (keyPattern alnum) := behind_key.lawful

theorem lawful_credential : Lawful (wordChar alnum) (credentialPattern alnum) :=
  behind_credential.lawful

/-! ### Credentials -/

/-- The name of a credential, in any case. -/
def Credential (u : List Char) : Prop := u.map folded ∈ credentialWords

instance (u : List Char) : Decidable (Credential u) := inferInstanceAs (Decidable (_ ∈ _))

/-- What is in front of a credential's value: its name, and a separator that may have
blanks around it. -/
def Opening (l : List Char) : Prop := ∃ u x sep y, Credential u ∧ (∀ c ∈ x, isSpace c = true) ∧
  isSep sep = true ∧ (∀ c ∈ y, isSpace c = true) ∧ l = u ++ (x ++ sep :: y)

/-- A value: one character at least, and none that ends it. -/
def Filled (v : List Char) : Prop := v ≠ [] ∧ ∀ c ∈ v, valueChar c = true

/-- What stands behind a value that goes as far as it can. -/
def Ends (s : List Char) : Prop := ∀ c ∈ s.head?, valueChar c = false

theorem spelling_of_mem_credentialWords : ∀ word ∈ credentialWords, ∀ q ∈ word,
    spelling q = true := by
  have hall : ∀ word ∈ credentialWords, word.all (fun q => Decidable.decide (spelling q = true)) = true := by
    decide +kernel
  exact fun word hword => forall_mem_of_all (hall word hword)

theorem Credential.keyChar (h : Credential u) (hc : c ∈ u) : keyChar c = true :=
  keyChar_of_folded (spelling_of_mem_credentialWords _ h _ (List.mem_map_of_mem hc))

theorem Credential.ne_nil (h : Credential u) : u ≠ [] := by
  rintro rfl
  exact absurd h (by decide +kernel)

theorem isSpace_of_valueChar (h : valueChar c = true) : isSpace c = false := by
  simp only [valueChar, Bool.not_eq_true', Bool.or_eq_false_iff] at h
  exact h.1.2

theorem isSpace_of_isSep (h : isSep c = true) : isSpace c = false :=
  isSpace_of_valueChar (valueChar_of_isSep h)

/-- A name is told from what is behind it. -/
theorem keyChar_of_isSpace (h : isSpace c = true) : keyChar c = false := by
  by_contra hkey
  rw [Bool.not_eq_false] at hkey
  rw [isSpace_of_valueChar (valueChar_of_keyChar hkey).1] at h
  cases h

theorem keyChar_of_isSep (h : isSep c = true) : keyChar c = false := by
  by_contra hkey
  rw [Bool.not_eq_false] at hkey
  rw [(valueChar_of_keyChar hkey).2.1] at h
  cases h

/-- What is behind a name begins with a blank or a separator. -/
theorem keyChar_of_head {x y : List Char} {sep : Char} (hx : ∀ c ∈ x, isSpace c = true)
    (hsep : isSep sep = true) : ∀ c ∈ (x ++ sep :: y).head?, keyChar c = false := by
  cases x with
  | nil =>
    intro c hc
    obtain rfl := Option.some.inj hc
    exact keyChar_of_isSep hsep
  | cons d x =>
    intro c hc
    obtain rfl := Option.some.inj hc
    exact keyChar_of_isSpace (hx d List.mem_cons_self)

theorem Filled.head (h : Filled v) (s : List Char) : ∀ c ∈ (v ++ s).head?, isSpace c = false := by
  obtain ⟨hne, hall⟩ := h
  obtain ⟨d, v, rfl⟩ := List.exists_cons_of_ne_nil hne
  intro c hc
  obtain rfl := Option.some.inj hc
  exact isSpace_of_valueChar (hall d List.mem_cons_self)

/-- A text begins with one name, one separator and one value. -/
theorem opening_unique {v' rest' : List Char} (hl : Opening l) (hl' : Opening l') (hv : Filled v)
    (hv' : Filled v') (hrest : Ends rest) (hrest' : Ends rest')
    (h : l ++ (v ++ rest) = l' ++ (v' ++ rest')) : l = l' ∧ v = v' ∧ rest = rest' := by
  obtain ⟨u, x, sep, y, hu, hx, hsep, hy, rfl⟩ := hl
  obtain ⟨u', x', sep', y', hu', hx', hsep', hy', rfl⟩ := hl'
  have hspace : ∀ {sep : Char} {t : List Char}, isSep sep = true →
      ∀ c ∈ (sep :: t).head?, isSpace c = false := by
    intro sep t hsep c hc
    obtain rfl := Option.some.inj hc
    exact isSpace_of_isSep hsep
  simp only [List.append_assoc, List.cons_append] at h
  obtain ⟨rfl, hblanks⟩ := append_unique (fun c => hu.keyChar) (fun c => hu'.keyChar)
    (keyChar_of_head hx hsep) (keyChar_of_head hx' hsep') h
  obtain ⟨rfl, hsign⟩ := append_unique hx hx' (hspace hsep) (hspace hsep') hblanks
  obtain ⟨rfl, hbehind⟩ := List.cons.inj hsign
  obtain ⟨rfl, hvalue⟩ := append_unique hy hy' (hv.head rest) (hv'.head rest') hbehind
  obtain ⟨rfl, rfl⟩ := append_unique hv.2 hv'.2 hrest hrest' hvalue
  exact ⟨rfl, rfl, rfl⟩

/-- A word of the pattern is found where its letters are, up to case. -/
theorem spellWord_eq_some {text : List Char} (htext : ∀ q ∈ text, spelling q = true) :
    spellWord alnum text b s = some (b', rest) ↔
      ∃ u, s = u ++ rest ∧ u.map folded = text ∧ b' = after (wordChar alnum) b u := by
  rw [spellWord, spell_eq_some]
  refine exists_congr fun u => and_congr_right fun _ => and_congr_left fun _ => ?_
  rw [List.forall₂_map_left_iff]
  exact forall₂_sameLetter htext

theorem separator_eq_some : separator alnum b s = some (b', rest) ↔ ∃ x sep y,
    s = x ++ sep :: y ++ rest ∧ (∀ c ∈ x, isSpace c = true) ∧ isSep sep = true ∧
      (∀ c ∈ y, isSpace c = true) ∧ (∀ c ∈ rest.head?, isSpace c = false) ∧
      b' = after (wordChar alnum) b (x ++ sep :: y) := by
  simp only [separator, seq_eq_some, many_eq_some, spell_eq_some]
  constructor
  · rintro ⟨b₁, s₁, ⟨x, rfl, hx, -, rfl⟩, b₂, s₂, ⟨z, rfl, hz, rfl⟩, y, rfl, hy, hrest, rfl⟩
    cases hz with
    | @cons _ sep _ _ hsep hz =>
      cases hz
      refine ⟨x, sep, y, by simp, hx, ?_, hy, hrest, ?_⟩
      · rw [isSep, Bool.or_comm]
        exact hsep
      · rw [after_append]
        rfl
  · rintro ⟨x, sep, y, rfl, hx, hsep, hy, hrest, rfl⟩
    refine ⟨_, sep :: y ++ rest, ⟨x, by simp, hx, ?_, rfl⟩, _, y ++ rest,
      ⟨[sep], rfl, .cons ?_ .nil, rfl⟩, y, rfl, hy, hrest, ?_⟩
    · intro c hc
      obtain rfl := Option.some.inj hc
      exact isSpace_of_isSep hsep
    · simpa only [isSep, Bool.or_comm] using hsep
    · rw [after_append]
      rfl

/-- One alternative of the credential pattern. -/
theorem credential_eq_some {text : List Char} (htext : ∀ q ∈ text, spelling q = true) :
    seq (spellWord alnum text) (seq (separator alnum) (many1 (wordChar alnum) valueChar)) b s =
        some (b', rest) ↔
      ∃ u x sep y v, u.map folded = text ∧ (∀ c ∈ x, isSpace c = true) ∧ isSep sep = true ∧
        (∀ c ∈ y, isSpace c = true) ∧ Filled v ∧ Ends rest ∧
        s = u ++ (x ++ sep :: y) ++ (v ++ rest) ∧
        b' = after (wordChar alnum) b (u ++ (x ++ sep :: y) ++ v) := by
  simp only [seq_eq_some, spellWord_eq_some htext, separator_eq_some, many1_eq_some]
  constructor
  · rintro ⟨b₁, s₁, ⟨u, rfl, hu, rfl⟩, b₂, s₂, ⟨x, sep, y, rfl, hx, hsep, hy, -, rfl⟩,
      v, rfl, hne, hv, hrest, rfl⟩
    exact ⟨u, x, sep, y, v, hu, hx, hsep, hy, ⟨hne, hv⟩, hrest, by simp,
      by simp only [after_append]⟩
  · rintro ⟨u, x, sep, y, v, hu, hx, hsep, hy, hv, hrest, rfl, rfl⟩
    exact ⟨_, _, ⟨u, List.append_assoc _ _ _, hu, rfl⟩, _, _, ⟨x, sep, y, rfl, hx, hsep, hy,
      hv.head rest, rfl⟩, v, rfl, hv.1, hv.2, hrest, by simp only [after_append]⟩

/-- **What the credential pattern matches**: a name, a separator and a value that goes as far
as it can. -/
theorem credentialPattern_eq_some : credentialPattern alnum b s = some (b', rest) ↔
    b = false ∧ ∃ l v, Opening l ∧ Filled v ∧ Ends rest ∧ s = l ++ (v ++ rest) ∧
      b' = after (wordChar alnum) false (l ++ v) := by
  have hone : ∀ {b' : Bool} {rest : List Char}, (∃ p ∈ credentialWords.map fun text =>
      seq (spellWord alnum text) (seq (separator alnum) (many1 (wordChar alnum) valueChar)),
      p false s = some (b', rest)) ↔ ∃ l v, Opening l ∧ Filled v ∧ Ends rest ∧
        s = l ++ (v ++ rest) ∧ b' = after (wordChar alnum) false (l ++ v) := by
    intro b' rest
    constructor
    · rintro ⟨p, hp, h⟩
      obtain ⟨text, htext, rfl⟩ := List.mem_map.mp hp
      obtain ⟨u, x, sep, y, v, rfl, hx, hsep, hy, hv, hrest, hs, hb⟩ :=
        (credential_eq_some (spelling_of_mem_credentialWords text htext)).mp h
      exact ⟨_, v, ⟨u, x, sep, y, htext, hx, hsep, hy, rfl⟩, hv, hrest, hs, hb⟩
    · rintro ⟨l, v, ⟨u, x, sep, y, hu, hx, hsep, hy, rfl⟩, hv, hrest, hs, hb⟩
      exact ⟨_, List.mem_map_of_mem hu, (credential_eq_some (spelling_of_mem_credentialWords _ hu)).mpr
        ⟨u, x, sep, y, v, rfl, hx, hsep, hy, hv, hrest, hs, hb⟩⟩
  constructor
  · intro h
    cases b with
    | true => cases h
    | false =>
      obtain ⟨p, hp, hmatch⟩ := List.exists_of_findSome?_eq_some h
      exact ⟨rfl, hone.mp ⟨p, hp, hmatch⟩⟩
  · rintro ⟨rfl, l, v, hl, hv, hrest, hs, hb⟩
    -- some alternative matches, and what is matched does not depend on which
    obtain ⟨p, hp, hmatch⟩ := hone.mpr ⟨l, v, hl, hv, hrest, hs, hb⟩
    have hsome : (credentialPattern alnum false s).isSome = true :=
      List.findSome?_isSome_iff.mpr ⟨p, hp, by rw [hmatch]; rfl⟩
    obtain ⟨⟨b₁, rest₁⟩, hr⟩ := Option.isSome_iff_exists.mp hsome
    obtain ⟨p', hp', hmatch'⟩ := List.exists_of_findSome?_eq_some hr
    obtain ⟨l', v', hl', hv', hrest', hs', hb'⟩ := hone.mp ⟨p', hp', hmatch'⟩
    obtain ⟨rfl, rfl, rfl⟩ := opening_unique hl' hl hv' hv hrest' hrest (hs'.symm.trans hs)
    rw [hr, hb, ← hb']

/-! ### Keys -/

theorem spelling_of_mem_keyWords : ∀ word ∈ keyWords, ∀ q ∈ word, spelling q = true := by
  have hall : ∀ word ∈ keyWords, word.all (fun q => Decidable.decide (spelling q = true)) = true := by
    decide +kernel
  exact fun word hword => forall_mem_of_all (hall word hword)

/-- What the key pattern matches begins with its mark and is of characters of a key. -/
theorem keyPattern_chars (h : keyPattern alnum b s = some (b', rest)) : b = false ∧
    ∃ p k u, s = p :: k :: u ++ rest ∧ (folded p = 's' ∨ folded p = 'p') ∧ folded k = 'k' ∧
      ∀ c ∈ p :: k :: u, keyChar c = true := by
  cases b with
  | true => cases h
  | false =>
    obtain ⟨pat, hpat, hmatch⟩ := List.exists_of_findSome?_eq_some h
    obtain ⟨text, htext, rfl⟩ := List.mem_map.mp hpat
    have hspelling := spelling_of_mem_keyWords text htext
    obtain ⟨b₁, s₁, hword, hrun⟩ := seq_eq_some.mp hmatch
    obtain ⟨m, rfl, rfl, -⟩ := (spellWord_eq_some hspelling).mp hword
    obtain ⟨v, rfl, hv⟩ := runTail_chars hrun
    have hm : ∀ c ∈ m, keyChar c = true := fun c hc =>
      keyChar_of_folded (hspelling _ (List.mem_map_of_mem hc))
    have hmark : ∃ p k m', m = p :: k :: m' ∧ (folded p = 's' ∨ folded p = 'p') ∧ folded k = 'k' := by
      match m, htext with
      | [], htext => exact absurd htext (by decide +kernel)
      | [p], htext => simp [keyWords] at htext
      | p :: k :: m', htext =>
        refine ⟨p, k, m', rfl, ?_⟩
        simp only [keyWords, List.map_cons, List.mem_cons, List.cons.injEq, List.not_mem_nil,
          or_false] at htext
        rcases htext with ⟨hp, hk, -⟩ | ⟨hp, hk, -⟩
        · exact ⟨Or.inl hp, hk⟩
        · exact ⟨Or.inr hp, hk⟩
    obtain ⟨p, k, m', rfl, hp, hk⟩ := hmark
    refine ⟨rfl, p, k, m' ++ v, by simp, hp, hk, fun c hc => ?_⟩
    rw [← List.cons_append, ← List.cons_append, List.mem_append] at hc
    exact hc.elim (hm c) (hv c)

/-- No key goes on behind a character of no key. -/
theorem bars_keyPattern (hc : keyChar c = false) : Bars (keyPattern alnum) c := by
  refine Bars.atBoundary (bars_alternatives fun p hp => ?_)
  obtain ⟨text, htext, rfl⟩ := List.mem_map.mp hp
  refine Bars.seq (bars_spell fun f hf => ?_) (bars_runTail hc _ _)
  obtain ⟨q, hq, rfl⟩ := List.mem_map.mp hf
  have hspelling := spelling_of_mem_keyWords text htext q hq
  by_contra hsame
  rw [Bool.not_eq_false, sameLetter_iff hspelling] at hsame
  rw [← hsame] at hspelling
  rw [keyChar_of_folded hspelling] at hc
  cases hc

/-- No mark of a key begins in a word that is spelled so, behind a word character or not. -/
def quiet : Bool → List Char → Bool
  | _, [] => true
  | b, p :: word =>
    (b || !(p == 's' || p == 'p') || word.head?.any fun k => k != 'k') && quiet (p != '-') word

theorem quiet_of_mem_credentialWords : ∀ word ∈ credentialWords, quiet false word = true := by
  decide +kernel

theorem wordChar_eq (hc : keyChar c = true) : wordChar alnum c = (folded c != '-') := by
  by_cases hminus : c = '-'
  · subst hminus
    rfl
  · rw [wordChar_of_keyChar hc hminus, eq_comm, bne_iff_ne]
    intro hfolded
    unfold folded at hfolded
    split_ifs at hfolded
    · exact absurd hfolded (by decide)
    · exact absurd hfolded (by decide)
    · exact absurd hfolded (by decide)
    · rcases toLower_cases c with hrange | hsame
      · rw [hfolded] at hrange
        exact absurd hrange (by decide)
      · exact hminus (hsame.symm.trans hfolded)

theorem clearIn_of_quiet (hu : ∀ c ∈ u, keyChar c = true) (h : quiet b (u.map folded) = true)
    (t : List Char) : ClearIn (wordChar alnum) (keyPattern alnum) b u t := by
  induction u generalizing b with
  | nil => trivial
  | cons d u ih =>
    rw [List.map_cons, quiet, Bool.and_eq_true] at h
    refine ⟨?_, ih (fun c hc => hu c (List.mem_cons_of_mem d hc)) ?_⟩
    · refine Option.eq_none_iff_forall_ne_some.mpr fun r hr => ?_
      obtain ⟨rfl, p, k, v, hs, hp, hk, -⟩ := keyPattern_chars hr
      obtain ⟨rfl, htail⟩ := List.cons.inj hs
      have hfirst : (folded d == 's' || folded d == 'p') = true := by
        simpa using hp
      rw [hfirst, Bool.not_true, Bool.false_or, Bool.false_or] at h
      cases u with
      | nil => exact absurd h.1 (by simp)
      | cons k' u =>
        obtain ⟨rfl, -⟩ := List.cons.inj htail
        exact absurd hk (by simpa using h.1)
    · rw [wordChar_eq (hu d List.mem_cons_self)]
      exact h.2

theorem wordChar_of_isSep (h : isSep c = true) : wordChar alnum c = false := by
  simp only [isSep, Bool.or_eq_true, beq_iff_eq] at h
  rcases h with rfl | rfl <;> rfl

theorem wordChar_of_isSpace (h : isSpace c = true) : wordChar alnum c = false := by
  by_contra hword
  rw [Bool.not_eq_false] at hword
  rw [isSpace_of_wordChar hword] at h
  cases h

/-- What is in front of a value holds no key, and no word ends with it. -/
theorem Opening.clearIn (h : Opening l) (t : List Char) :
    ClearIn (wordChar alnum) (keyPattern alnum) false l t ∧
      ∀ b, after (wordChar alnum) b l = false := by
  obtain ⟨u, x, sep, y, hu, hx, hsep, hy, rfl⟩ := h
  have hy' : ∀ c ∈ sep :: y, wordChar alnum c = false := by
    rw [List.forall_mem_cons]
    exact ⟨wordChar_of_isSep hsep, fun c hc => wordChar_of_isSpace (hy c hc)⟩
  have hblank : ∀ c ∈ x ++ sep :: y, wordChar alnum c = false := by
    intro c hc
    rcases List.mem_append.mp hc with hc | hc
    · exact wordChar_of_isSpace (hx c hc)
    · exact hy' c hc
  refine ⟨(clearIn_of_quiet (fun c => hu.keyChar) (quiet_of_mem_credentialWords _ hu) _).append
    (clearIn_of_not_word lawful_key hblank _ _), fun b => ?_⟩
  rw [after_append, after_append]
  have hafter : ∀ (y : List Char) (b : Bool), b = false → (∀ c ∈ y, wordChar alnum c = false) →
      after (wordChar alnum) b y = false := by
    intro y
    induction y with
    | nil => exact fun b hb _ => hb
    | cons c y ih =>
      intro b _ hall
      change after (wordChar alnum) (wordChar alnum c) y = false
      exact ih _ (hall c List.mem_cons_self) fun d hd => hall d (List.mem_cons_of_mem c hd)
  exact hafter y _ (hy' sep List.mem_cons_self) fun c hc => hy' c (List.mem_cons_of_mem sep hc)

/-! ### One reading -/

/-- The reading of a text that takes keys and credentials where it comes to them. -/
inductive Reads (alnum : Char → Bool) : Bool → List Char → List Char → Prop
  | nil (b : Bool) : Reads alnum b [] []
  | keep {b : Bool} {c : Char} {s t : List Char} (nokey : keyPattern alnum b (c :: s) = none)
      (nocredential : credentialPattern alnum b (c :: s) = none)
      (next : Reads alnum (wordChar alnum c) s t) : Reads alnum b (c :: s) (c :: t)
  | key {b b' : Bool} {s rest t : List Char} (found : keyPattern alnum b s = some (b', rest))
      (next : Reads alnum b' rest t) : Reads alnum b s (keyToken ++ t)
  | credential {b b' : Bool} {s rest t : List Char}
      (found : credentialPattern alnum b s = some (b', rest))
      (next : Reads alnum b' rest t) : Reads alnum b s (credentialToken ++ t)

theorem wordChar_of_not_valueChar (h : valueChar c = false) : wordChar alnum c = false := by
  by_contra hword
  rw [Bool.not_eq_false] at hword
  rw [valueChar_of_wordChar hword] at h
  cases h

theorem Ends.word (h : Ends s) : ∀ c ∈ s.head?, wordChar alnum c = false :=
  fun c hc => wordChar_of_not_valueChar (h c hc)

/-- What goes on in a value does so within it. -/
theorem append_of_ends {r : List Char} (hw : ∀ c ∈ w, valueChar c = true) (hrest : Ends rest)
    (h : v ++ rest = w ++ r) : ∃ v', v = w ++ v' ∧ r = v' ++ rest := by
  rcases List.append_eq_append_iff.mp h with ⟨a, rfl, rfl⟩ | ⟨a, rfl, rfl⟩
  · cases a with
    | nil => exact ⟨[], by simp, rfl⟩
    | cons d a =>
      have hd := hw d (by simp)
      rw [hrest d rfl] at hd
      cases hd
  · exact ⟨a, rfl, rfl⟩

/-- The keys in a value are taken, and a value is left. -/
theorem rewrites_value (hrest : Ends rest)
    (h : Rewrites (wordChar alnum) (keyPattern alnum) keyToken b rest t)
    (hv : ∀ c ∈ v, valueChar c = true) (b' : Bool) :
    ∃ v', Rewrites (wordChar alnum) (keyPattern alnum) keyToken b' (v ++ rest) (v' ++ t) ∧
      (∀ c ∈ v', valueChar c = true) ∧ (v ≠ [] → v' ≠ []) := by
  have hkeyToken : ∀ d ∈ keyToken, valueChar d = true := forall_mem_of_all (by decide +kernel)
  induction hn : v.length using Nat.strong_induction_on generalizing v b' with
  | _ n ih =>
    subst hn
    cases v with
    | nil => exact ⟨[], h.behind lawful_key hrest.word b', by simp, fun hne => absurd rfl hne⟩
    | cons c v =>
      cases hkey : keyPattern alnum b' (c :: v ++ rest) with
      | none =>
        obtain ⟨v', hrewrites, hv', -⟩ := ih v.length (Nat.lt_succ_self _)
          (fun d hd => hv d (List.mem_cons_of_mem c hd)) (wordChar alnum c) rfl
        exact ⟨c :: v', .keep hkey hrewrites,
          List.forall_mem_cons.mpr ⟨hv c List.mem_cons_self, hv'⟩, fun _ => List.cons_ne_nil c v'⟩
      | some r =>
        obtain ⟨b₁, r⟩ := r
        obtain ⟨-, p, k, u, hs, -, -, hchars⟩ := keyPattern_chars hkey
        obtain ⟨v₁, hsplit, rfl⟩ := append_of_ends
          (fun d hd => (valueChar_of_keyChar (hchars d hd)).1) hrest hs
        have hlength := congrArg List.length hsplit
        simp only [List.length_cons, List.length_append] at hlength
        have hv₁ : ∀ d ∈ v₁, valueChar d = true := by
          intro d hd
          refine hv d ?_
          rw [hsplit]
          exact List.mem_append_right _ hd
        obtain ⟨v', hrewrites, hv', -⟩ := ih v₁.length (by rw [List.length_cons]; omega) hv₁ b₁ rfl
        refine ⟨keyToken ++ v', ?_, ?_, fun _ => by simp [keyToken]⟩
        · rw [List.append_assoc]
          exact .swap hkey hrewrites
        · intro d hd
          rcases List.mem_append.mp hd with hd | hd
          · exact hkeyToken d hd
          · exact hv' d hd

/-- **The first two substitutions are one reading.** -/
theorem Reads.rewrites (h : Reads alnum b s w) :
    ∃ t, Rewrites (wordChar alnum) (keyPattern alnum) keyToken b s t ∧
      Rewrites (wordChar alnum) (credentialPattern alnum) credentialToken b t w := by
  induction h with
  | nil b => exact ⟨[], .nil b, .nil b⟩
  | @keep b c s w hkey hcredential hnext ih =>
    obtain ⟨t, hfirst, hsecond⟩ := ih
    refine ⟨c :: t, .keep hkey hfirst, .keep ?_ hsecond⟩
    have hlocal := (@behind_credential alnum).local lawful_key
      ("REDACTED_KEY".toList ++ [']'])
    refine Option.eq_none_iff_forall_ne_some.mpr fun r hr => ?_
    have hlook := hlocal (.keep hkey hfirst) hkey (Option.isSome_of_eq_some hr)
    change (credentialPattern alnum b (c :: s)).isSome = true at hlook
    rw [hcredential] at hlook
    cases hlook
  | @key b b' s rest w hfound hnext ih =>
    obtain ⟨t, hfirst, hsecond⟩ := ih
    refine ⟨keyToken ++ t, .swap hfound hfirst, ?_⟩
    have hletters : ∀ c ∈ "EDACTED_KEY".toList, keyChar c = true ∧ c ≠ '-' := fun c hc =>
      token_letters c (List.mem_append_left _ (List.mem_append_left _ hc))
    have hafter : after (wordChar alnum) b keyToken = false := after_token _ b
    refine Rewrites.append (behind_credential.clearIn hletters b t) ?_
    rw [hafter]
    cases b' with
    | false => exact hsecond
    | true =>
      have htail := hfirst.head lawful_key (fun _ hc => hc) (lawful_key.tail hfound)
      exact hsecond.behind lawful_credential htail false
  | @credential b b' s rest w hfound hnext ih =>
    obtain ⟨t, hfirst, hsecond⟩ := ih
    obtain ⟨rfl, l, v, hl, hv, hrest, rfl, -⟩ := credentialPattern_eq_some.mp hfound
    obtain ⟨v', hvalue, hchars, hne⟩ := rewrites_value hrest hfirst hv.2 false
    have ht : Ends t := hfirst.head lawful_key (fun _ hc => valueChar_of_wordChar hc) hrest
    refine ⟨l ++ (v' ++ t), Rewrites.append (hl.clearIn _).1 ?_, .swap
      (credentialPattern_eq_some.mpr ⟨rfl, l, v', hl, ⟨hne hv.1, hchars⟩, ht, rfl, rfl⟩)
      (hsecond.behind lawful_credential ht.word _)⟩
    rw [(hl.clearIn []).2]
    exact hvalue

/-- **The rule for readings**: what holds of the empty text, and is carried over keys,
credentials and single characters, holds of every text. -/
@[elab_as_elim]
theorem reading_induction (alnum : Char → Bool) {P : Bool → List Char → Prop}
    (nil : ∀ b, P b [])
    (key : ∀ b s b' rest, keyPattern alnum b s = some (b', rest) → P b' rest → P b s)
    (credential : ∀ b s b' rest, credentialPattern alnum b s = some (b', rest) → P b' rest →
      P b s)
    (keep : ∀ b c s, keyPattern alnum b (c :: s) = none →
      credentialPattern alnum b (c :: s) = none → P (wordChar alnum c) s → P b (c :: s))
    (b : Bool) (s : List Char) : P b s := by
  induction hn : s.length using Nat.strong_induction_on generalizing s b with
  | _ n ih =>
    subst hn
    cases s with
    | nil => exact nil b
    | cons c s =>
      cases hkey : keyPattern alnum b (c :: s) with
      | some r => exact key b _ r.1 r.2 hkey (ih _ (lawful_key.length_lt hkey) r.1 r.2 rfl)
      | none =>
        cases hcredential : credentialPattern alnum b (c :: s) with
        | some r =>
          exact credential b _ r.1 r.2 hcredential
            (ih _ (lawful_credential.length_lt hcredential) r.1 r.2 rfl)
        | none =>
          exact keep b c s hkey hcredential
            (ih _ (Nat.lt_succ_self s.length) (wordChar alnum c) s rfl)

/-- Every text has a reading. -/
theorem exists_reads (b : Bool) (s : List Char) : ∃ t, Reads alnum b s t := by
  induction b, s using reading_induction alnum with
  | nil b => exact ⟨[], .nil b⟩
  | key b s b' rest hfound ih =>
    obtain ⟨t, ht⟩ := ih
    exact ⟨_, .key hfound ht⟩
  | credential b s b' rest hfound ih =>
    obtain ⟨t, ht⟩ := ih
    exact ⟨_, .credential hfound ht⟩
  | keep b c s hkey hcredential ih =>
    obtain ⟨t, ht⟩ := ih
    exact ⟨_, .keep hkey hcredential ht⟩

/-- A redacted text is a reading, and what the last pattern makes of it. -/
theorem redactChars_eq (h : Reads alnum false s w) : redactChars alnum s =
    substitute (wordChar alnum) (sensitivePattern alnum) sensitiveToken w := by
  obtain ⟨t, hfirst, hsecond⟩ := h.rewrites
  rw [redactChars, substitute_eq lawful_key hfirst,
    substitute_eq lawful_credential hsecond]

/-- A reading does not depend on what is in front of a character that is none of a word. -/
theorem Reads.behind (hs : ∀ c ∈ s.head?, wordChar alnum c = false) (h : Reads alnum b s t)
    (b' : Bool) : Reads alnum b' s t := by
  cases h with
  | nil => exact .nil b'
  | keep hkey hcredential hnext =>
    exact .keep (lawful_key.none_of_head hs b')
      (lawful_credential.none_of_head hs b') hnext
  | key hfound hnext =>
    rw [lawful_key.none_of_head hs] at hfound
    cases hfound
  | credential hfound hnext =>
    rw [lawful_credential.none_of_head hs] at hfound
    cases hfound

end AiSaas.Kernel
