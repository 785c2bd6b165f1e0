import AiSaas.Kernel.Values
import AiSaas.Lib.Dicts
import AiSaas.Observability.Redaction
import Mathlib.Data.Rat.Defs

/-!
# Traces

The tracer of `services/observability/otel.py`: attributes are redacted when a span is
started, when one is set, and when the span is handed to the exporter.

## Main definitions

* `clean`, `redactAttributes` — `clean` and `redact_attributes`.
* `SampledTracer`, `Span`, `Call`, `step`, `run` — a tracer, and what is done with its spans.
* `Agree` — two values that differ only under sensitive keys.
* `Settled` — every text a value is turned into holds nothing to redact.

## Main results

* `run_eq_of_agree` — what is exported does not depend on a value under a sensitive key.
* `redactAttributes_twice_iff` — redacting twice is redacting once exactly when the
  values of other types are settled.
-/

namespace AiSaas.Observability

open Kernel (Key Value)
open Dicts

/-! ### Redacting attributes -/

variable (lower : String → String)

/-- `_SENSITIVE_KEY_PARTS` -/
def sensitiveKeyParts : List String :=
  ["prompt", "input", "payment", "payload", "authorization", "oauth", "code", "token", "secret",
    "password", "credential", "cookie", "api_key", "apikey", "raw_body"]

/-- `any(part in normalized for part in _SENSITIVE_KEY_PARTS)` -/
def sensitive (key : String) : Bool :=
  sensitiveKeyParts.any fun part => contains (replaceChar (lower key) '-' "_") part

mutual

/-- `clean`. -/
def clean (key : String) (value : Value) : Value :=
  if sensitive lower key then .str "[REDACTED]" else
    match value with
    | .str s => .str (redactString s)
    | .dict items => .dict (dictOf (cleanEntries items))
    | .list items => .list (cleanItems key items)
    | .tuple items => .list (cleanItems key items)
    | .other text _ => .str text
    | value => value

/-- `(str(child_key), clean(str(child_key), child_value))` for every item of a mapping. -/
def cleanEntries : List (Key × Value) → List (Key × Value)
  | [] => []
  | (key, child) :: items => (.str key.text, clean key.text child) :: cleanEntries items

/-- `[clean(key, child) for child in value]`. -/
def cleanItems (key : String) : List Value → List Value
  | [] => []
  | child :: items => clean key child :: cleanItems key items

end

/-- `redact_attributes`. -/
def redactAttributes (attributes : List (Key × Value)) : List (Key × Value) :=
  dictOf (cleanEntries lower attributes)

/-! ### Spans -/

/-- `SampledTracer`; its exporter is there or not. -/
structure SampledTracer where
  sampleRate : ℚ
  exporter : Bool
  valid : 0 ≤ sampleRate ∧ sampleRate ≤ 1

/-- `_Span`. -/
structure Span where
  name : String
  traceId : String
  spanId : String
  attributes : List (Key × Value)
  sampled : Bool
  startedAt : ℚ
  status : String

/-- The document a span is exported as. -/
structure Document where
  traceId : String
  spanId : String
  name : String
  status : String
  durationMs : JsonText.FloatText
  attributes : List (Key × Value)

/-- What the interpreter computes for the tracer. -/
structure Host where
  /-- `str.lower`. -/
  lower : String → String
  /-- `round(max(0.0, ended - started) * 1000, 3)`. -/
  milliseconds : ℚ → ℚ → JsonText.FloatText

/-- What one call draws. -/
structure Draw where
  random : ℚ
  traceId : String
  spanId : String
  clock : ℚ

/-- The calls on a tracer and on the spans it has started. -/
inductive Call where
  | startSpan (name : String) (attributes : Option (List (Key × Value)))
  | setAttribute (span : ℕ) (key : String) (value : Value)
  /-- `__exit__`, with the name of the exception's type. -/
  | exit (span : ℕ) (exception : Option String)

/-- The spans that were started, and the documents handed to the exporter. -/
structure Tracing where
  spans : List Span := []
  exported : List Document := []

variable (host : Host) (tracer : SampledTracer)

/-- `SampledTracer.start_span`. -/
def startSpan (draw : Draw) (name : String) (attributes : Option (List (Key × Value))) :
    Except Error Span :=
  if blank name then .error (.valueError "span name must be non-empty")
  else .ok {
    name := strip name, traceId := draw.traceId, spanId := draw.spanId
    attributes := redactAttributes host.lower (attributes.getD [])
    sampled := tracer.sampleRate = 1 ∨ (0 < tracer.sampleRate ∧ draw.random < tracer.sampleRate)
    startedAt := draw.clock, status := "ok" }

/-- `_Span.set_attribute`. -/
def Span.setAttribute (span : Span) (key : String) (value : Value) : Span :=
  { span with
    attributes := update span.attributes (redactAttributes host.lower [(.str key, value)]) }

/-- `_Span.__exit__`, up to `_finish`. -/
def Span.close (span : Span) : Option String → Span
  | some exception =>
    { span with
      status := "error"
      attributes := assign (.str "error.type") (.str exception) span.attributes }
  | none => span

/-- `SampledTracer._finish`: the document that is exported, if one is. -/
def finish (draw : Draw) (span : Span) : Option Document :=
  if !span.sampled || !tracer.exporter then none
  else some {
    traceId := span.traceId, spanId := span.spanId, name := span.name, status := span.status
    durationMs := host.milliseconds span.startedAt draw.clock
    attributes := redactAttributes host.lower span.attributes }

/-- One call; a call on a span that was never started, or that raises, leaves everything as
it is. -/
def step (w : Tracing) (draw : Draw) : Call → Tracing
  | .startSpan name attributes =>
    match startSpan host tracer draw name attributes with
    | .ok span => { w with spans := w.spans ++ [span] }
    | .error _ => w
  | .setAttribute n key value =>
    { w with spans := w.spans.modify n fun span => span.setAttribute host key value }
  | .exit n exception =>
    match w.spans[n]? with
    | some span =>
      { spans := w.spans.set n (span.close exception)
        exported := w.exported ++ (finish host tracer draw (span.close exception)).toList }
    | none => w

/-- The calls of a run, with what each draws. -/
def run (w : Tracing) (calls : List (Call × Draw)) : Tracing :=
  calls.foldl (fun w call => step host tracer w call.2 call.1) w

/-! ### What redacting twice would change -/

mutual

/-- Every value of another type, outside sensitive keys, has a text that holds nothing to
redact. -/
def Settled (key : String) : Value → Prop
  | .dict items => sensitive lower key = true ∨ SettledEntries items
  | .list items => sensitive lower key = true ∨ SettledItems key items
  | .tuple items => sensitive lower key = true ∨ SettledItems key items
  | .other text _ => sensitive lower key = true ∨ redactString text = text
  | _ => True

/-- An assignment to a key whose text comes again does not count. -/
def SettledEntries : List (Key × Value) → Prop
  | [] => True
  | (key, child) :: items =>
    (key.text ∈ items.map (fun item => item.1.text) ∨ Settled key.text child) ∧ SettledEntries items

/-- The items of a list under a key. -/
def SettledItems (key : String) : List Value → Prop
  | [] => True
  | child :: items => Settled key child ∧ SettledItems key items

end

/-! ### What is not exported -/

mutual

/-- Two values under a key that differ only in what is under sensitive keys. -/
inductive Agree : String → Value → Value → Prop
  | hidden {key : String} (v w : Value) (h : sensitive lower key = true) : Agree key v w
  | same (key : String) (v : Value) : Agree key v v
  | dict {key : String} {items items' : List (Key × Value)} (h : AgreeEntries items items') :
      Agree key (.dict items) (.dict items')
  | list {key : String} {items items' : List Value} (h : AgreeItems key items items') :
      Agree key (.list items) (.list items')
  | tuple {key : String} {items items' : List Value} (h : AgreeItems key items items') :
      Agree key (.tuple items) (.tuple items')

/-- Two mappings of the same keys, in the same order. -/
inductive AgreeEntries : List (Key × Value) → List (Key × Value) → Prop
  | nil : AgreeEntries [] []
  | cons {key : Key} {v w : Value} {items items' : List (Key × Value)}
      (value : Agree key.text v w) (rest : AgreeEntries items items') :
      AgreeEntries ((key, v) :: items) ((key, w) :: items')

/-- Two lists of one length under a key. -/
inductive AgreeItems : String → List Value → List Value → Prop
  | nil (key : String) : AgreeItems key [] []
  | cons {key : String} {v w : Value} {items items' : List Value}
      (value : Agree key v w) (rest : AgreeItems key items items') :
      AgreeItems key (v :: items) (w :: items')

end

/-- Two calls that differ only in values under sensitive keys. -/
inductive AgreeCalls : Call → Call → Prop
  | startSpan (name : String) {attributes attributes' : List (Key × Value)}
      (h : AgreeEntries lower attributes attributes') :
      AgreeCalls (.startSpan name (some attributes)) (.startSpan name (some attributes'))
  | setAttribute (n : ℕ) {key : String} {v w : Value} (h : Agree lower key v w) :
      AgreeCalls (.setAttribute n key v) (.setAttribute n key w)
  | same (call : Call) : AgreeCalls call call

variable {lower}

theorem clean_of_sensitive {key : String} (h : sensitive lower key = true) (v : Value) :
    clean lower key v = .str "[REDACTED]" := by
  rw [clean.eq_def, if_pos h]

theorem clean_dict (key : String) (items : List (Key × Value)) : clean lower key (.dict items) =
    if sensitive lower key then .str "[REDACTED]" else .dict (dictOf (cleanEntries lower items)) := by
  rw [clean.eq_def]

theorem clean_list (key : String) (items : List Value) : clean lower key (.list items) =
    if sensitive lower key then .str "[REDACTED]" else .list (cleanItems lower key items) := by
  rw [clean.eq_def]

theorem clean_tuple (key : String) (items : List Value) : clean lower key (.tuple items) =
    if sensitive lower key then .str "[REDACTED]" else .list (cleanItems lower key items) := by
  rw [clean.eq_def]

mutual

/-- Values that differ only under sensitive keys are redacted to one value. -/
theorem clean_eq_of_agree : ∀ {key : String} {v w : Value}, Agree lower key v w →
    clean lower key v = clean lower key w
  | _, _, _, .hidden v w h => by rw [clean_of_sensitive h, clean_of_sensitive h]
  | _, _, _, .same _ _ => rfl
  | _, _, _, .dict h => by rw [clean_dict, clean_dict, cleanEntries_eq_of_agree h]
  | _, _, _, .list h => by rw [clean_list, clean_list, cleanItems_eq_of_agree h]
  | _, _, _, .tuple h => by rw [clean_tuple, clean_tuple, cleanItems_eq_of_agree h]

theorem cleanEntries_eq_of_agree : ∀ {items items' : List (Key × Value)},
    AgreeEntries lower items items' → cleanEntries lower items = cleanEntries lower items'
  | _, _, .nil => rfl
  | _, _, .cons hvalue hrest => by
    rw [cleanEntries, cleanEntries, clean_eq_of_agree hvalue, cleanEntries_eq_of_agree hrest]

theorem cleanItems_eq_of_agree : ∀ {key : String} {items items' : List Value},
    AgreeItems lower key items items' → cleanItems lower key items = cleanItems lower key items'
  | _, _, _, .nil _ => rfl
  | _, _, _, .cons hvalue hrest => by
    rw [cleanItems, cleanItems, clean_eq_of_agree hvalue, cleanItems_eq_of_agree hrest]

end

variable {host : Host} {tracer : SampledTracer}

/-- A call does to the spans, and hands to the exporter, what a call does that differs in
sensitive values only. -/
theorem step_eq_of_agree {call call' : Call} (h : AgreeCalls host.lower call call') (w : Tracing)
    (draw : Draw) : step host tracer w draw call = step host tracer w draw call' := by
  cases h with
  | startSpan name hentries =>
    simp only [step, startSpan, redactAttributes, Option.getD_some,
      cleanEntries_eq_of_agree hentries]
  | setAttribute n hvalue =>
    simp only [step, Span.setAttribute, redactAttributes, cleanEntries, Key.text,
      clean_eq_of_agree hvalue]
  | same => rfl

/-- **What is exported does not depend on sensitive values.** -/
theorem run_eq_of_agree {calls calls' : List (Call × Draw)}
    (h : List.Forall₂ (fun c c' => AgreeCalls host.lower c.1 c'.1 ∧ c.2 = c'.2) calls calls')
    (w : Tracing) : run host tracer w calls = run host tracer w calls' := by
  induction h generalizing w with
  | nil => rfl
  | cons hcall _ ih =>
    rw [run, List.foldl_cons, run, List.foldl_cons, step_eq_of_agree hcall.1, hcall.2]
    exact ih _

/-! ### Redacting twice -/

theorem settledItems_iff {key : String} {items : List Value} :
    SettledItems lower key items ↔ ∀ child ∈ items, Settled lower key child := by
  induction items with
  | nil => simp [SettledItems]
  | cons child items ih => simp [SettledItems, ih]

/-- The last assignments to the texts of the keys are the ones that count. -/
theorem settledEntries_iff {items : List (Key × Value)} : SettledEntries lower items ↔
    ∀ l key child r, items = l ++ (key, child) :: r → key.text ∉ r.map (fun item => item.1.text) →
      Settled lower key.text child := by
  induction items with
  | nil =>
    simp only [SettledEntries, true_iff]
    intro l key child r h
    cases l <;> cases h
  | cons item items ih =>
    obtain ⟨key, child⟩ := item
    rw [SettledEntries, ih]
    constructor
    · rintro ⟨hfirst, hrest⟩ l key' child' r h hr
      cases l with
      | nil =>
        obtain ⟨hitem, rfl⟩ := List.cons.inj h
        obtain ⟨rfl, rfl⟩ := Prod.mk.inj hitem
        exact hfirst.resolve_left hr
      | cons _ l =>
        obtain ⟨-, rfl⟩ := List.cons.inj h
        exact hrest l key' child' r rfl hr
    · intro h
      refine ⟨?_, fun l key' child' r heq hr => h ((key, child) :: l) key' child' r (by rw [heq]; rfl) hr⟩
      by_cases hmem : key.text ∈ items.map (fun item => item.1.text)
      · exact Or.inl hmem
      · exact Or.inr (h [] key child items rfl hmem)

theorem cleanItems_eq_map (key : String) (items : List Value) :
    cleanItems lower key items = items.map (clean lower key) := by
  induction items with
  | nil => rfl
  | cons child items ih => rw [cleanItems, ih, List.map_cons]

theorem cleanEntries_eq_map (items : List (Key × Value)) : cleanEntries lower items =
    (items.map fun item => (Key.str item.1.text, item.2)).map
      fun item => (item.1, clean lower item.1.text item.2) := by
  induction items with
  | nil => rfl
  | cons item items ih =>
    obtain ⟨key, child⟩ := item
    rw [cleanEntries, ih, List.map_cons, List.map_cons]
    rfl

/-- A mapping is redacted as its dictionary of texts is. -/
theorem redactAttributes_eq_map (items : List (Key × Value)) : redactAttributes lower items =
    (dictOf (items.map fun item => (Key.str item.1.text, item.2))).map
      fun item => (item.1, clean lower item.1.text item.2) := by
  rw [redactAttributes, cleanEntries_eq_map]
  exact dictOf_map (fun (key : Key) child => clean lower key.text child) _

/-- The mapping is as it was when every value that counts is. -/
theorem redactAttributes_twice (items : List (Key × Value)) :
    redactAttributes lower (redactAttributes lower items) = redactAttributes lower items ↔
      ∀ l key child r, items = l ++ (key, child) :: r →
        key.text ∉ r.map (fun item => item.1.text) →
        clean lower key.text (clean lower key.text child) = clean lower key.text child := by
  set d := dictOf (items.map fun item => (Key.str item.1.text, item.2)) with hd
  have hnodup : (d.map Prod.fst).Nodup := nodup_dictOf _
  have hmem : ∀ key child, (key, child) ∈ d ↔ ∃ l k r, items = l ++ (k, child) :: r ∧
      key = .str k.text ∧ k.text ∉ r.map fun item => item.1.text := by
    intro key child
    rw [hd, mem_dictOf]
    constructor
    · rintro ⟨l, r, hitems, hr⟩
      obtain ⟨l', w, rfl, rfl, hw⟩ := List.map_eq_append_iff.mp hitems
      obtain ⟨⟨k, c⟩, r', rfl, hk, rfl⟩ := List.map_eq_cons_iff.mp hw
      obtain ⟨rfl, rfl⟩ := Prod.mk.inj hk
      refine ⟨l', k, r', rfl, rfl, fun hin => hr ?_⟩
      obtain ⟨item, hitem, htext⟩ := List.mem_map.mp hin
      rw [List.map_map]
      exact List.mem_map.mpr ⟨item, hitem, congrArg Key.str htext⟩
    · rintro ⟨l, k, r, rfl, rfl, hr⟩
      refine ⟨_, _, List.map_append, fun hin => hr ?_⟩
      rw [List.map_map] at hin
      obtain ⟨item, hitem, htext⟩ := List.mem_map.mp hin
      exact List.mem_map.mpr ⟨item, hitem, Key.str.inj htext⟩
  -- the keys of a redacted mapping are distinct texts, so that it is redacted item by item
  have hagain : redactAttributes lower (redactAttributes lower items) =
      d.map fun item => (item.1, clean lower item.1.text (clean lower item.1.text item.2)) := by
    have htexts : (d.map fun item => (Key.str item.1.text, clean lower item.1.text item.2)) =
        d.map fun item => (item.1, clean lower item.1.text item.2) := by
      refine List.map_congr_left fun item hitem => ?_
      obtain ⟨l, k, r, -, hkey, -⟩ := (hmem item.1 item.2).mp hitem
      rw [hkey, Key.text]
    rw [redactAttributes_eq_map items, ← hd, redactAttributes_eq_map, List.map_map]
    change (dictOf (d.map fun item => (Key.str item.1.text, clean lower item.1.text item.2))).map _ = _
    rw [htexts, dictOf_of_nodup (by rwa [List.map_map]), List.map_map]
    rfl
  rw [hagain, redactAttributes_eq_map items, ← hd, List.map_inj_left]
  constructor
  · intro h l key child r hitems hr
    exact (Prod.mk.inj (h (.str key.text, child) ((hmem _ _).mpr ⟨l, key, r, hitems, rfl, hr⟩))).2
  · rintro h ⟨key, child⟩ hitem
    obtain ⟨l, k, r, hitems, rfl, hr⟩ := (hmem _ _).mp hitem
    exact Prod.ext rfl (h l k child r hitems hr)

mutual

/-- Redacting a value twice is redacting it once exactly when it is settled. -/
theorem clean_clean_iff (key : String) : ∀ v : Value,
    clean lower key (clean lower key v) = clean lower key v ↔ Settled lower key v
  | .none => by cases hkey : sensitive lower key <;> simp [clean, Settled, hkey]
  | .bool b => by cases hkey : sensitive lower key <;> simp [clean, Settled, hkey]
  | .int n => by cases hkey : sensitive lower key <;> simp [clean, Settled, hkey]
  | .float x => by cases hkey : sensitive lower key <;> simp [clean, Settled, hkey]
  | .str s => by
    cases hkey : sensitive lower key with
    | true => simp [clean_of_sensitive hkey, Settled]
    | false => simp [clean, hkey, Settled, redactString_redactString]
  | .other text truthy => by
    cases hkey : sensitive lower key with
    | true => simp [clean_of_sensitive hkey, Settled, hkey]
    | false => simp [clean, hkey, Settled]
  | .dict items => by
    cases hkey : sensitive lower key with
    | true => simp [clean_of_sensitive hkey, Settled, hkey]
    | false =>
      have htwice := @redactAttributes_twice lower items
      rw [redactAttributes, redactAttributes] at htwice
      rw [Settled, hkey, settledEntries_iff]
      simp only [clean_dict, hkey, Bool.false_eq_true, if_false, Value.dict.injEq, false_or, htwice]
      have hentries := cleanEntries_iff items
      constructor
      · intro h l key child r hitems hr
        exact (hentries (key, child) (by simp [hitems])).mp (h l key child r hitems hr)
      · intro h l key child r hitems hr
        exact (hentries (key, child) (by simp [hitems])).mpr (h l key child r hitems hr)
  | .list items => by
    cases hkey : sensitive lower key with
    | true => simp [clean_of_sensitive hkey, Settled, hkey]
    | false =>
      rw [Settled, hkey, settledItems_iff]
      simp only [clean_list, hkey, Bool.false_eq_true, if_false, Value.list.injEq, false_or,
        cleanItems_eq_map, List.map_map, List.map_inj_left, Function.comp_apply]
      exact forall₂_congr (cleanItems_iff key items)
  | .tuple items => by
    cases hkey : sensitive lower key with
    | true => simp [clean_of_sensitive hkey, Settled, hkey]
    | false =>
      rw [Settled, hkey, settledItems_iff]
      simp only [clean_tuple, clean_list, hkey, Bool.false_eq_true, if_false, Value.list.injEq,
        false_or, cleanItems_eq_map, List.map_map, List.map_inj_left, Function.comp_apply]
      exact forall₂_congr (cleanItems_iff key items)

theorem cleanEntries_iff : ∀ items : List (Key × Value), ∀ item ∈ items,
    clean lower item.1.text (clean lower item.1.text item.2) = clean lower item.1.text item.2 ↔
      Settled lower item.1.text item.2
  | [] => fun _ h => absurd h List.not_mem_nil
  | (key, child) :: items => by
    intro item hitem
    rcases List.mem_cons.mp hitem with hfirst | hrest
    · rw [hfirst]
      exact clean_clean_iff key.text child
    · exact cleanEntries_iff items item hrest

theorem cleanItems_iff (key : String) : ∀ items : List Value, ∀ child ∈ items,
    clean lower key (clean lower key child) = clean lower key child ↔ Settled lower key child
  | [] => fun _ h => absurd h List.not_mem_nil
  | first :: items => by
    intro child hchild
    rcases List.mem_cons.mp hchild with hfirst | hrest
    · rw [hfirst]
      exact clean_clean_iff key first
    · exact cleanItems_iff key items child hrest

end

/-- Redacting attributes twice is redacting them once exactly when they are settled. -/
theorem redactAttributes_twice_iff (items : List (Key × Value)) :
    redactAttributes lower (redactAttributes lower items) = redactAttributes lower items ↔
      SettledEntries lower items := by
  rw [redactAttributes_twice, settledEntries_iff]
  constructor
  · intro h l key child r hitems hr
    exact (clean_clean_iff key.text child).mp (h l key child r hitems hr)
  · intro h l key child r hitems hr
    exact (clean_clean_iff key.text child).mpr (h l key child r hitems hr)

/-- **Traces are noninterfering**, over every run of calls on a tracer and its spans; and
redaction is idempotent exactly on attributes whose values of other types hold nothing to
redact. -/
theorem traces_safe_iff (host : Host) :
    (∀ (tracer : SampledTracer) (calls calls' : List (Call × Draw)),
      List.Forall₂ (fun c c' => AgreeCalls host.lower c.1 c'.1 ∧ c.2 = c'.2) calls calls' →
        (run host tracer {} calls).exported = (run host tracer {} calls').exported) ∧
    ∀ attributes : List (Key × Value),
      redactAttributes host.lower (redactAttributes host.lower attributes) =
        redactAttributes host.lower attributes ↔ SettledEntries host.lower attributes :=
  ⟨fun _ _ _ h => by rw [run_eq_of_agree h], redactAttributes_twice_iff⟩

/-- A host that changes no letter. -/
def sampleHost : Host := ⟨id, fun _ _ => .finite ['0', '.', '0'] (by decide)⟩

/-- An exception as an attribute: its text is not redacted, and then it is. -/
theorem exception_redacted_later :
    redactAttributes sampleHost.lower [(.str "cause", .other "bad key sk-abc123" true)] =
      [(.str "cause", .str "bad key sk-abc123")] ∧
    ¬ redactAttributes sampleHost.lower (redactAttributes sampleHost.lower
        [(.str "cause", .other "bad key sk-abc123" true)]) =
      redactAttributes sampleHost.lower [(.str "cause", .other "bad key sk-abc123" true)] := by
  have hkey : sensitive id "cause" = false := by decide +kernel
  have hredacted : redactString "bad key sk-abc123" = "bad key [REDACTED_KEY]" := by decide +kernel
  have hfirst : redactAttributes id [(.str "cause", .other "bad key sk-abc123" true)] =
      [(.str "cause", .str "bad key sk-abc123")] := by
    simp [redactAttributes, cleanEntries, clean, Key.text, hkey, dictOf, assign]
  have hsecond : redactAttributes id [(.str "cause", .str "bad key sk-abc123")] =
      [(.str "cause", .str "bad key [REDACTED_KEY]")] := by
    simp [redactAttributes, cleanEntries, clean, Key.text, hkey, dictOf, assign, hredacted]
  refine ⟨hfirst, ?_⟩
  rw [sampleHost, hfirst, hsecond]
  simp

end AiSaas.Observability
