import AiSaas.Kernel.Redaction
import AiSaas.Lib.CutText
import AiSaas.Lib.Transactions
import Mathlib.Data.List.Induction
import Mathlib.Data.String.Basic

/-!
# Values and their encodings

What `agent_platform/storage.py` is handed and what it writes: Python values, their
redaction, and the JSON texts they are stored as.  A mapping is the list of its
assignments, of which the last one to a key counts.

Texts are sequences of Unicode scalar values, and the interpreter's recursion limit is
not modelled.  A value of a type that JSON does not have is known by its `str` and its
truth.

## Main definitions

* `Value`, `Key`, `Value.truthy` — values.
* `Raised`, `Kind` — exceptions.
* `Host` — the interpreter's tables and library functions the store relies on.
* `redact` — `redact`.
* `toJson`, `dumps`, `loads`, `ofJson` — `json.dumps(…, sort_keys=True, default=str)` and
  `json.loads`.
* `boundedText`, `safeJson` — `_bounded_text` and `_safe_json`.
* `Fits` — an encoding that is not cut.

## Main results

* `redact_redact` — redacting twice is redacting once.
* `loads_dumps` — what is dumped is loaded.
* `toJson_ofJson` — a loaded value is dumped as the text it was loaded from.
* `loads_safeJson`, `loads_cut` — a stored value is read back exactly when it was not cut.
* `get?_stored` — a member of a stored mapping.
-/

namespace AiSaas.Kernel

open JsonText (FloatText)

/-! ### Values -/

/-- A key of a mapping: a string, or another value by its `str`. -/
inductive Key where
  | str (s : String)
  | other (text : String)
  deriving DecidableEq

/-- `str(key)`. -/
def Key.text : Key → String
  | str s => s
  | other text => text

/-- A Python value. -/
inductive Value where
  | none
  | bool (b : Bool)
  | int (n : ℤ)
  | float (x : FloatText)
  | str (s : String)
  | list (items : List Value)
  | tuple (items : List Value)
  | dict (items : List (Key × Value))
  | other (text : String) (truthy : Bool)
  deriving Inhabited

/-- A mapping, by its assignments. -/
abbrev Mapping := List (Key × Value)

namespace Mapping

/-- `mapping[key]`, if it is there. -/
def get? (m : Mapping) (key : String) : Option Value := m.reverse.lookup (.str key)

/-- `mapping.get(key)`. -/
def get (m : Mapping) (key : String) : Value := (m.get? key).getD .none

/-- `mapping.get(key, default)`. -/
def getD (m : Mapping) (key : String) (default : Value) : Value := (m.get? key).getD default

end Mapping

/-- `{name: value, …}`. -/
def record (fields : List (String × Value)) : Mapping := fields.map fun f => (.str f.1, f.2)

/-- `None`, or a text. -/
def Value.ofText? : Option String → Value
  | some s => .str s
  | Option.none => .none

/-- `value is None`. -/
def Value.isNone : Value → Bool
  | none => true
  | _ => false

/-- Truth value testing. -/
def Value.truthy : Value → Bool
  | none => false
  | bool b => b
  | int n => decide (n ≠ 0)
  | float x => decide (x.text ≠ ['0', '.', '0'] ∧ x.text ≠ ['-', '0', '.', '0'])
  | str s => decide (s ≠ "")
  | list items => !items.isEmpty
  | tuple items => !items.isEmpty
  | dict items => !items.isEmpty
  | other _ truthy => truthy

/-! ### Exceptions -/

/-- The exception types the code tells apart. -/
inductive Kind where
  | valueError
  | jsonDecodeError
  | idempotencyConflict
  | promptInjectionDetected
  | typeError
  | keyError
  | attributeError
  | overflowError
  | osError
  | fileNotFoundError
  | tenantScopeError
  | invalidApproval
  | integrityError
  /-- `sqlite3.ProgrammingError`: a value of a type SQLite does not have. -/
  | programmingError
  /-- Any other subclass of `Exception`. -/
  | other
  deriving DecidableEq, Repr

/-- An exception: its type and its `str`. -/
structure Raised where
  kind : Kind
  message : String
  deriving DecidableEq, Repr

namespace Kind

/-- The subclasses of `ValueError`. -/
def isValueError : Kind → Bool
  | valueError | jsonDecodeError | idempotencyConflict | promptInjectionDetected => true
  | _ => false

/-- The subclasses of `OSError`; `PermissionError` is one. -/
def isOSError : Kind → Bool
  | osError | fileNotFoundError | tenantScopeError | invalidApproval => true
  | _ => false

end Kind

/-! ### The interpreter -/

/-- A `datetime`, in microseconds, without or with a time zone. -/
inductive Moment where
  | naive (t : ℤ)
  | aware (t : ℤ)
  deriving DecidableEq, Repr

/-- What the store relies on of the interpreter and of SQLite. -/
structure Host where
  /-- `str.isalnum` beyond ASCII. -/
  alnum : Char → Bool
  /-- `repr` of a value that holds others, and `str` of a float. -/
  repr : Value → String
  /-- The text a `REAL` is converted to in a `TEXT` column. -/
  realText : FloatText → String
  /-- `int` of a finite float. -/
  wholePart : FloatText → ℤ
  /-- `hashlib.sha256(text.encode()).hexdigest()`. -/
  sha256 : String → String
  /-- `datetime.fromtimestamp(…, timezone.utc).isoformat()`. -/
  isoformat : ℤ → String
  /-- `datetime.fromisoformat`. -/
  fromisoformat : String → Except Raised Moment

/-- The clock and the identifiers one operation draws. -/
structure Draw where
  /-- The successive readings of the clock. -/
  now : ℕ → ℤ
  /-- `uuid.uuid4().hex`. -/
  uuid : ℕ → String

/-- An interpreter that tells the first two hours of 1970, and whose digest of a text is
the text. -/
def sampleHost : Host where
  alnum _ := false
  repr _ := ""
  realText x := String.ofList x.text
  wholePart _ := 0
  sha256 text := text
  isoformat t := if t = 0 then "1970-01-01T00:00:00+00:00" else "1970-01-01T01:00:00+00:00"
  fromisoformat text :=
    if text = "1970-01-01T00:00:00+00:00" then .ok (.aware 0)
    else if text = "1970-01-01T01:00:00+00:00" then .ok (.aware 3600000000)
    else .error ⟨.valueError, "Invalid isoformat string"⟩

/-- An hour into 1970 or its beginning, and identifiers of one family. -/
def sampleDraw (t : ℤ) (id : String) : Draw := ⟨fun _ => t, fun _ => id⟩

variable (host : Host)

/-- `str(value)`. -/
def pyStr : Value → String
  | .none => "None"
  | .bool b => if b then "True" else "False"
  | .int n => toString n
  | .str s => s
  | .other text _ => text
  | v => host.repr v

/-! ### Redaction -/

mutual

/-- `redact`. -/
def redact : Value → Value
  | .str s => .str (redactText host.alnum s)
  | .dict items => .dict (redactEntries items)
  | .list items => .list (redactItems items)
  | .tuple items => .list (redactItems items)
  | value => value

/-- `{str(key): redact(child) for …}`. -/
def redactEntries : List (Key × Value) → List (Key × Value)
  | [] => []
  | (key, child) :: items => (.str key.text, redact child) :: redactEntries items

/-- `[redact(child) for …]`. -/
def redactItems : List Value → List Value
  | [] => []
  | child :: items => redact child :: redactItems items

end

/-! ### JSON -/

/-- An assignment to a key of members that are sorted by their keys. -/
def setMember {β : Type} (key : String) (v : β) : List (String × β) → List (String × β)
  | [] => [(key, v)]
  | (k, w) :: rest =>
    if key < k then (key, v) :: (k, w) :: rest
    else if key = k then (key, v) :: rest
    else (k, w) :: setMember key v rest

/-- The members of a mapping, sorted by their keys. -/
def sortMembers {β : Type} (l : List (String × β)) : List (String × β) :=
  l.foldl (fun sorted m => setMember m.1 m.2 sorted) []

mutual

/-- What `json.dumps(value, sort_keys=True, default=str)` writes. -/
def toJson : Value → JsonText.Value
  | .none => .null
  | .bool b => .bool b
  | .int n => .int n
  | .float x => .float x
  | .str s => .str s
  | .list items => .arr (toItems items)
  | .tuple items => .arr (toItems items)
  | .dict items => .obj (sortMembers (toMembers items))
  | .other text _ => .str text

/-- The items of a sequence. -/
def toItems : List Value → List JsonText.Value
  | [] => []
  | v :: items => toJson v :: toItems items

/-- The assignments of a mapping. -/
def toMembers : List (Key × Value) → List (String × JsonText.Value)
  | [] => []
  | (key, v) :: items => (key.text, toJson v) :: toMembers items

end

mutual

/-- The value `json.loads` makes. -/
def ofJson : JsonText.Value → Value
  | .null => .none
  | .bool b => .bool b
  | .int n => .int n
  | .float x => .float x
  | .str s => .str s
  | .arr items => .list (ofItems items)
  | .obj members => .dict (ofMembers members)

/-- The items of an array. -/
def ofItems : List JsonText.Value → List Value
  | [] => []
  | v :: items => ofJson v :: ofItems items

/-- The members of an object. -/
def ofMembers : List (String × JsonText.Value) → Mapping
  | [] => []
  | (key, v) :: members => (.str key, ofJson v) :: ofMembers members

end

/-- `json.dumps(value, sort_keys=True, default=str)`; an integer with too many digits is
not converted. -/
def dumps (value : Value) : Except Raised String :=
  if (toJson value).Short then .ok (String.ofList (JsonText.write (toJson value)))
  else .error ⟨.valueError, "Exceeds the limit (4300 digits) for integer string conversion"⟩

/-- `json.loads(text)`. -/
def loads (text : String) : Except Raised JsonText.Value :=
  match JsonText.read text.toList with
  | some v => .ok v
  | none => .error ⟨.jsonDecodeError, "not a JSON document"⟩

/-- `_MAX_JSON_CHARS`. -/
def maxJsonChars : ℕ := 256000

/-- `_MAX_PROPOSAL_CHARS`. -/
def maxProposalChars : ℕ := 32000

/-- `"\n[TRUNCATED]"`. -/
def truncated : String := "\n[TRUNCATED]"

/-- `_bounded_text`, of a text. -/
def boundedText (text : String) (limit : ℕ) : String :=
  if text.length ≤ limit then text else String.ofList (text.toList.take limit) ++ truncated

/-- `_safe_json`. -/
def safeJson (value : Value) : Except Raised String :=
  (dumps (redact host value)).map fun encoded => boundedText encoded maxJsonChars

/-- `_request_hash`. -/
def requestHash (value : Value) : Except Raised String := (safeJson host value).map host.sha256

/-! ### Redacting twice -/

mutual

theorem redact_redact : ∀ value : Value, redact host (redact host value) = redact host value
  | .none | .bool _ | .int _ | .float _ | .other _ _ => rfl
  | .str s => congrArg Value.str (redactText_redactText s)
  | .list items => congrArg Value.list (redactItems_redactItems items)
  | .tuple items => congrArg Value.list (redactItems_redactItems items)
  | .dict items => congrArg Value.dict (redactEntries_redactEntries items)

theorem redactItems_redactItems : ∀ items : List Value,
    redactItems host (redactItems host items) = redactItems host items
  | [] => rfl
  | v :: items => by
    rw [redactItems, redactItems, redact_redact v, redactItems_redactItems items]

theorem redactEntries_redactEntries : ∀ items : List (Key × Value),
    redactEntries host (redactEntries host items) = redactEntries host items
  | [] => rfl
  | (key, v) :: items => by
    rw [redactEntries, redactEntries, redact_redact v, redactEntries_redactEntries items]
    rfl

end

variable {host}

/-! ### Sorted members -/

section Members

variable {β : Type} {key : String} {v : β} {l : List (String × β)}

/-- The keys of members, each below the next. -/
def SortedKeys (l : List (String × β)) : Prop := (l.map Prod.fst).Pairwise (· < ·)

theorem mem_keys_setMember {k : String} (h : k ∈ (setMember key v l).map Prod.fst) :
    k = key ∨ k ∈ l.map Prod.fst := by
  induction l with
  | nil => exact Or.inl (List.mem_singleton.mp h)
  | cons m l ih =>
    obtain ⟨k', w⟩ := m
    rw [setMember] at h
    split at h
    · exact List.mem_cons.mp h
    · split at h
      · next heq =>
        subst heq
        rcases List.mem_cons.mp h with h | h
        · exact Or.inl h
        · exact Or.inr (List.mem_cons_of_mem _ h)
      · rcases List.mem_cons.mp h with h | h
        · exact Or.inr (List.mem_cons.mpr (Or.inl h))
        · exact (ih h).imp_right (List.mem_cons_of_mem _)

theorem SortedKeys.setMember (h : SortedKeys l) : SortedKeys (setMember key v l) := by
  induction l with
  | nil => exact List.pairwise_singleton _ _
  | cons m l ih =>
    obtain ⟨k, w⟩ := m
    obtain ⟨hfirst, hrest⟩ := List.pairwise_cons.mp h
    rw [Kernel.setMember]
    split
    · next hlt =>
      refine List.pairwise_cons.mpr ⟨?_, h⟩
      intro k' hk'
      rcases List.mem_cons.mp hk' with rfl | hk'
      · exact hlt
      · exact hlt.trans (hfirst k' hk')
    · next hnlt =>
      split
      · next heq =>
        subst heq
        exact h
      · next hne =>
        refine List.pairwise_cons.mpr ⟨?_, ih hrest⟩
        intro k' hk'
        rcases mem_keys_setMember hk' with rfl | hk'
        · exact lt_of_le_of_ne (not_lt.mp hnlt) (Ne.symm hne)
        · exact hfirst k' hk'

theorem sortedKeys_sortMembers (l : List (String × β)) : SortedKeys (sortMembers l) := by
  have hfold : ∀ (l sorted : List (String × β)), SortedKeys sorted →
      SortedKeys (l.foldl (fun sorted m => setMember m.1 m.2 sorted) sorted) := by
    intro l
    induction l with
    | nil => exact fun sorted h => h
    | cons m l ih => exact fun sorted h => ih _ h.setMember
  exact hfold l [] List.Pairwise.nil

theorem setMember_of_lt (h : ∀ k ∈ l.map Prod.fst, k < key) : setMember key v l = l ++ [(key, v)] := by
  induction l with
  | nil => rfl
  | cons m l ih =>
    obtain ⟨k, w⟩ := m
    have hk : k < key := h k List.mem_cons_self
    rw [setMember, if_neg (not_lt_of_gt hk), if_neg (ne_of_gt hk),
      ih fun k' hk' => h k' (List.mem_cons_of_mem _ hk')]
    rfl

/-- Members that are sorted stay as they are. -/
theorem SortedKeys.sortMembers (h : SortedKeys l) : sortMembers l = l := by
  have hfold : ∀ (l sorted : List (String × β)), SortedKeys (sorted ++ l) →
      l.foldl (fun sorted m => Kernel.setMember m.1 m.2 sorted) sorted = sorted ++ l := by
    intro l
    induction l with
    | nil => exact fun sorted _ => (List.append_nil sorted).symm
    | cons m l ih =>
      intro sorted h
      have hlast : Kernel.setMember m.1 m.2 sorted = sorted ++ [m] := by
        apply setMember_of_lt
        intro k hk
        rw [SortedKeys, List.map_append, List.pairwise_append] at h
        exact h.2.2 k hk m.1 List.mem_cons_self
      rw [List.foldl_cons, hlast, ih (sorted ++ [m]) (by rwa [List.append_assoc]),
        List.append_assoc]
      rfl
  exact hfold l [] h

end Members

/-! ### Loading what was dumped -/

mutual

/-- Every object's members are sorted. -/
def Canonical : JsonText.Value → Prop
  | .arr items => CanonicalItems items
  | .obj members => SortedKeys members ∧ CanonicalMembers members
  | _ => True

/-- The objects among the items are. -/
def CanonicalItems : List JsonText.Value → Prop
  | [] => True
  | v :: items => Canonical v ∧ CanonicalItems items

/-- The objects among the members are. -/
def CanonicalMembers : List (String × JsonText.Value) → Prop
  | [] => True
  | (_, v) :: members => Canonical v ∧ CanonicalMembers members

end

theorem CanonicalMembers.setMember {key : String} {v : JsonText.Value}
    {members : List (String × JsonText.Value)} (hv : Canonical v) (h : CanonicalMembers members) :
    CanonicalMembers (setMember key v members) := by
  induction members with
  | nil => exact ⟨hv, trivial⟩
  | cons m members ih =>
    obtain ⟨k, w⟩ := m
    rw [Kernel.setMember]
    split
    · exact ⟨hv, h⟩
    · split
      · exact ⟨hv, h.2⟩
      · exact ⟨h.1, ih h.2⟩

theorem CanonicalMembers.sortMembers {members : List (String × JsonText.Value)}
    (h : CanonicalMembers members) : CanonicalMembers (sortMembers members) := by
  have hfold : ∀ (l sorted : List (String × JsonText.Value)), CanonicalMembers l →
      CanonicalMembers sorted →
      CanonicalMembers (l.foldl (fun sorted m => Kernel.setMember m.1 m.2 sorted) sorted) := by
    intro l
    induction l with
    | nil => exact fun sorted _ h => h
    | cons m l ih => exact fun sorted hl h => ih _ hl.2 (h.setMember hl.1)
  exact hfold members [] h trivial

mutual

/-- What is dumped has its members sorted. -/
theorem canonical_toJson : ∀ value : Value, Canonical (toJson value)
  | .none | .bool _ | .int _ | .float _ | .str _ | .other _ _ => trivial
  | .list items => canonicalItems_toItems items
  | .tuple items => canonicalItems_toItems items
  | .dict items => ⟨sortedKeys_sortMembers _, (canonicalMembers_toMembers items).sortMembers⟩

theorem canonicalItems_toItems : ∀ items : List Value, CanonicalItems (toItems items)
  | [] => trivial
  | v :: items => ⟨canonical_toJson v, canonicalItems_toItems items⟩

theorem canonicalMembers_toMembers : ∀ items : List (Key × Value),
    CanonicalMembers (toMembers items)
  | [] => trivial
  | (_, v) :: items => ⟨canonical_toJson v, canonicalMembers_toMembers items⟩

end

mutual

/-- **A loaded value is dumped as the text it was loaded from.** -/
theorem toJson_ofJson : ∀ v : JsonText.Value, Canonical v → toJson (ofJson v) = v
  | .null, _ | .bool _, _ | .int _, _ | .float _, _ | .str _, _ => rfl
  | .arr items, h => congrArg JsonText.Value.arr (toItems_ofItems items h)
  | .obj members, h => by
    rw [ofJson, toJson, toMembers_ofMembers members h.2, h.1.sortMembers]

theorem toItems_ofItems : ∀ items : List JsonText.Value, CanonicalItems items →
    toItems (ofItems items) = items
  | [], _ => rfl
  | v :: items, h => by rw [ofItems, toItems, toJson_ofJson v h.1, toItems_ofItems items h.2]

theorem toMembers_ofMembers : ∀ members : List (String × JsonText.Value),
    CanonicalMembers members → toMembers (ofMembers members) = members
  | [], _ => rfl
  | (key, v) :: members, h => by
    rw [ofMembers, toMembers, toJson_ofJson v h.1, toMembers_ofMembers members h.2]
    rfl

end

/-- **What is dumped is loaded.** -/
theorem loads_dumps {value : Value} {text : String} (h : dumps value = .ok text) :
    loads text = .ok (toJson value) := by
  unfold dumps at h
  split at h
  · next hshort =>
    obtain rfl := Except.ok.inj h
    rw [loads, String.toList_ofList, JsonText.read_write hshort]
  · cases h

/-- A text that fits is stored as it is. -/
theorem boundedText_of_le {text : String} {limit : ℕ} (h : text.length ≤ limit) :
    boundedText text limit = text := if_pos h

/-! ### Stored values -/

variable (host) in
/-- The encoding of a value is not cut. -/
def Fits (value : Value) : Prop :=
  ∀ ⦃text⦄, dumps (redact host value) = .ok text → text.length ≤ maxJsonChars

instance (value : Value) : Decidable (Fits host value) :=
  match h : dumps (redact host value) with
  | .ok text => decidable_of_iff (text.length ≤ maxJsonChars)
      ⟨fun hle text' h' => Except.ok.inj (h.symm.trans h') ▸ hle, fun hfits => hfits h⟩
  | .error e => isTrue fun text' h' => by rw [h] at h'; cases h'

/-- **A value whose encoding fits is read back**, redacted. -/
theorem loads_safeJson {value : Value} {text : String} (hfits : Fits host value)
    (h : safeJson host value = .ok text) : loads text = .ok (toJson (redact host value)) := by
  rw [safeJson] at h
  cases hdumps : dumps (redact host value) with
  | error e => rw [hdumps] at h; cases h
  | ok encoded =>
    rw [hdumps] at h
    have htext : boundedText encoded maxJsonChars = text := Except.ok.inj h
    rw [← htext, boundedText_of_le (hfits hdumps)]
    exact loads_dumps hdumps

/-- A value whose encoding was cut is not. -/
theorem loads_cut {value : Value} {text : String} (hcut : ¬ Fits host value)
    (h : safeJson host value = .ok text) :
    text ≠ "" ∧ loads text = .error ⟨.jsonDecodeError, "not a JSON document"⟩ := by
  rw [safeJson] at h
  cases hdumps : dumps (redact host value) with
  | error e => rw [hdumps] at h; cases h
  | ok encoded =>
    rw [hdumps] at h
    have hlong : ¬ encoded.length ≤ maxJsonChars := fun hle => hcut fun text' h' =>
      Except.ok.inj (hdumps.symm.trans h') ▸ hle
    have htext : boundedText encoded maxJsonChars = text := Except.ok.inj h
    rw [boundedText, if_neg hlong] at htext
    have hmarked : JsonText.Marked ['R', 'U', 'N', 'C', 'A', 'T', 'E', 'D', ']'] text.toList := by
      refine ⟨encoded.toList.take maxJsonChars, ?_⟩
      rw [← htext, String.toList_append, String.toList_ofList]
      rfl
    refine ⟨?_, by rw [loads, JsonText.read_marked hmarked]⟩
    rintro rfl
    exact absurd (List.suffix_nil.mp hmarked) (List.cons_ne_nil _ _)

/-! ### Members by their keys -/

theorem lookup_cons_eq {γ β : Type} [DecidableEq γ] (k key : γ) (v : β) (l : List (γ × β)) :
    ((key, v) :: l).lookup k = if k = key then some v else l.lookup k := by
  rw [List.lookup_cons]
  by_cases hk : k = key
  · rw [beq_iff_eq.mpr hk, if_pos hk]
  · rw [beq_eq_false_iff_ne.mpr hk, if_neg hk]

section Lookup

variable {β : Type} {l : List (String × β)} (k : String)

theorem lookup_setMember (key : String) (v : β) (l : List (String × β)) :
    (setMember key v l).lookup k = if k = key then some v else l.lookup k := by
  induction l with
  | nil => rw [setMember, lookup_cons_eq]
  | cons m l ih =>
    obtain ⟨k', w⟩ := m
    rw [setMember]
    split
    · rw [lookup_cons_eq]
    · split
      · next heq =>
        subst heq
        rw [lookup_cons_eq, lookup_cons_eq]
        by_cases hk : k = key <;> simp only [hk, if_true, if_false]
      · next hne =>
        rw [lookup_cons_eq, lookup_cons_eq, ih]
        by_cases hk : k = key
        · rw [hk, if_pos rfl, if_neg hne, if_pos rfl]
        · rw [if_neg hk, if_neg hk]

/-- Of the assignments to a key the last one counts. -/
theorem lookup_sortMembers (l : List (String × β)) :
    (sortMembers l).lookup k = l.reverse.lookup k := by
  induction l using List.reverseRecOn with
  | nil => rfl
  | append_singleton l m ih =>
    rw [sortMembers, List.foldl_append, List.foldl_cons, List.foldl_nil, lookup_setMember,
      List.reverse_append, List.reverse_singleton, List.singleton_append, lookup_cons_eq]
    exact congrArg _ ih

/-- Among sorted members it does not matter from which end one looks. -/
theorem SortedKeys.lookup_reverse (h : SortedKeys l) : l.reverse.lookup k = l.lookup k := by
  induction l with
  | nil => rfl
  | cons m l ih =>
    obtain ⟨hfirst, hrest⟩ := List.pairwise_cons.mp h
    rw [List.reverse_cons, List.lookup_append, ih hrest, lookup_cons_eq, lookup_cons_eq]
    by_cases hk : k = m.1
    · have hnone : l.lookup k = none := by
        rw [List.lookup_eq_none_iff]
        intro m' hm'
        rw [bne_iff_ne, hk]
        exact ne_of_lt (hfirst m'.1 (List.mem_map_of_mem hm'))
      rw [hnone, if_pos hk, if_pos hk]
      rfl
    · rw [if_neg hk, if_neg hk]
      exact Option.or_none

theorem get?_ofMembers (members : List (String × JsonText.Value)) :
    Mapping.get? (ofMembers members) k = (members.reverse.lookup k).map ofJson := by
  have hmap : ofMembers members = members.map fun m => (Key.str m.1, ofJson m.2) := by
    induction members with
    | nil => rfl
    | cons m members ih => rw [ofMembers, List.map_cons, ih]
  rw [Mapping.get?, hmap, ← List.map_reverse]
  induction members.reverse with
  | nil => rfl
  | cons m rest ih =>
    rw [List.map_cons, lookup_cons_eq, lookup_cons_eq, ih]
    by_cases hk : k = m.1
    · rw [if_pos hk, if_pos (congrArg Key.str hk)]
      rfl
    · rw [if_neg hk, if_neg fun h => hk (Key.str.inj h)]

variable (m m' : Mapping)

theorem toMembers_eq_map : toMembers m = m.map fun e => (e.1.text, toJson e.2) := by
  induction m with
  | nil => rfl
  | cons e m ih => rw [toMembers, List.map_cons, ih]

theorem redactEntries_eq_map :
    redactEntries host m = m.map fun e => (Key.str e.1.text, redact host e.2) := by
  induction m with
  | nil => rfl
  | cons e m ih => rw [redactEntries, List.map_cons, ih]

theorem redactEntries_append :
    redactEntries host (m ++ m') = redactEntries host m ++ redactEntries host m' := by
  rw [redactEntries_eq_map, redactEntries_eq_map, redactEntries_eq_map, List.map_append]

/-- Of two mappings, the second one's members count. -/
theorem Mapping.get?_append : Mapping.get? (m ++ m') k = (Mapping.get? m' k).or (Mapping.get? m k) := by
  rw [Mapping.get?, List.reverse_append, List.lookup_append]
  rfl

/-- **Reading a member back** of a mapping that was redacted and dumped. -/
theorem get?_stored : Mapping.get? (ofMembers (sortMembers (toMembers (redactEntries host m)))) k
    = (Mapping.get? (redactEntries host m) k).map fun v => ofJson (toJson v) := by
  rw [get?_ofMembers, (sortedKeys_sortMembers _).lookup_reverse, lookup_sortMembers,
    redactEntries_eq_map, toMembers_eq_map, Mapping.get?, List.map_map, ← List.map_reverse,
    ← List.map_reverse]
  induction m.reverse with
  | nil => rfl
  | cons e rest ih =>
    rw [List.map_cons, List.map_cons, Function.comp_apply, lookup_cons_eq, lookup_cons_eq]
    by_cases hk : k = e.1.text
    · rw [if_pos (show k = (Key.str e.1.text).text from hk), if_pos (congrArg Key.str hk)]
      rfl
    · rw [if_neg (show ¬ k = (Key.str e.1.text).text from hk),
        if_neg fun h => hk (Key.str.inj h)]
      exact ih

end Lookup

end AiSaas.Kernel
