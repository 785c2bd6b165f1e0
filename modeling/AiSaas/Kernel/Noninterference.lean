import AiSaas.Kernel.Calls
import AiSaas.Kernel.Coverage

/-!
# Secrets and what the kernel stores

Two texts that differ in a secret only, and what `redact_text` and the operations of
`KernelStore` make of them.  A secret stands behind a key and its separator, or behind
`authorization`, a scheme and a space.  Nothing tells one secret from another exactly where
the text in front of it covers it, which the text in front of a scheme's secret never does:
the scheme is the value that is taken.

## Main definitions

* `Naming`, `Context` — what stands in front of a secret.
* `Place`, `PayloadPlace`, `Writing` — where an operation is handed a text.
* `Database.upToIds`, `stored` — what an operation leaves, but for identifiers.
* `Noninterfering` — one secret stands for another.

## Main results

* `redact_fill` — what is redacted at its place.
* `stored_fill` — what is stored of texts with one redaction.
* `covers_front` — a key with nothing found in front of it covers its secret.
* `noninterference_iff` — when one secret stands for another.
-/

namespace AiSaas.Kernel

open Redaction Relational Transaction Processes Store

/-! ### Texts with a secret -/

/-- `password|passwd|secret|token|api[_-]?key` -/
def plainKeys : List (List Char) :=
  ["password", "passwd", "secret", "token", "api_key", "api-key", "apikey"].map String.toList

/-- What names a secret: one of the keys, or `authorization` and a scheme, in any case. -/
inductive Naming (alnum : Char → Bool)
  | key (name : String) (named : name.toList.map folded ∈ plainKeys)
  | scheme (name : String) (named : name.toList.map folded = "authorization".toList)
      (word : String) (ne : word ≠ "")
      (chars : ∀ c ∈ word.toList, wordChar alnum c = true ∨ c = '-')

namespace Naming

variable {alnum : Char → Bool}

/-- The key. -/
def name : Naming alnum → String
  | key name _ => name
  | scheme name .. => name

/-- What stands between the separator and the secret. -/
def lead : Naming alnum → String
  | key .. => ""
  | scheme _ _ word _ _ => word ++ " "

/-- The secret stands right behind the separator. -/
def Plain : Naming alnum → Prop
  | key .. => True
  | scheme .. => False

end Naming

/-- A text in front of a secret: nothing or a text that ends in no word character, a key, and
a separator that may have blanks around it. -/
structure Context (alnum : Char → Bool) where
  before : String
  boundary : ∀ c ∈ before.toList.getLast?, wordChar alnum c = false
  naming : Naming alnum
  left : String
  sep : Delimiter
  right : String
  left_blank : ∀ c ∈ left.toList, isSpace c = true
  right_blank : ∀ c ∈ right.toList, isSpace c = true

namespace Context

variable {alnum : Char → Bool}

/-- The text in front of the secret. -/
def front (context : Context alnum) : String :=
  context.before ++ context.naming.name ++ context.left ++ String.ofList [context.sep.char] ++
    context.right ++ context.naming.lead

/-- The text with a secret in it. -/
def text (context : Context alnum) (secret : SecretValue) (after : Suffix) : String :=
  context.front ++ secret.text ++ after.text

end Context

/-! ### Where a text is handed over -/

/-- A place for a text in a value, at any depth. -/
inductive Place
  | here
  | item (front : List Value) (inner : Place) (back : List Value)
  | component (front : List Value) (inner : Place) (back : List Value)
  | member (front : Mapping) (key : Key) (inner : Place) (back : Mapping)

/-- A value with a text at its place. -/
def Place.fill (s : String) : Place → Value
  | here => .str s
  | item front inner back => .list (front ++ inner.fill s :: back)
  | component front inner back => .tuple (front ++ inner.fill s :: back)
  | member front key inner back => .dict (front ++ (key, inner.fill s) :: back)

/-- A place for a text in a mapping. -/
structure PayloadPlace where
  front : Mapping
  key : Key
  inner : Place
  back : Mapping

/-- A mapping with a text at its place. -/
def PayloadPlace.fill (place : PayloadPlace) (s : String) : Mapping :=
  place.front ++ (place.key, place.inner.fill s) :: place.back

/-- An operation that is handed a text: as a proposal, or in the payload of a run, of a change
of its state or of an event, or in the state of a checkpoint. -/
inductive Writing
  | proposal (args : NewProposal)
  | run (args : NewRun) (place : PayloadPlace)
  | move (args : Move) (place : PayloadPlace)
  | event (runId tenantId event : String) (place : PayloadPlace)
  | checkpoint (runId tenantId node : String) (place : PayloadPlace)

/-- The call with the text. -/
def Writing.call (s : String) : Writing → Call
  | proposal args => .createProposal { args with proposal := s }
  | run args place => .createRun { args with payload := place.fill s }
  | move args place => .transition { args with payload := some (place.fill s) }
  | event runId tenantId name place => .appendEvent runId tenantId name (place.fill s)
  | checkpoint runId tenantId node place => .saveCheckpoint runId tenantId node (place.fill s)

/-- A run's row without the `approval_id`, an identifier that a payload may bring. -/
def RunRow.upToIds (r : RunRow) : RunRow := { r with approvalId := none }

/-- The rows of a database, but for the `approval_id`s of its runs. -/
def Database.upToIds (db : Database) : Database :=
  { db with
    productRuns := db.productRuns.update (fun _ => true) RunRow.upToIds
      ⟨fun _ => rfl, fun _ => rfl, fun _ _ => rfl⟩ }

/-- The rows a call leaves with the times and identifiers it draws, or has left when it is
cut off as these run out. -/
def stored (host : Host) (draws : List Draw) (db : Database) (call : Call) : Database :=
  ((call.program host).run (StoreOp.exec host) draws [] db).state.upToIds

/-- One secret stands for another: a redacted text is the same, and so are the rows that
are written for it. -/
def Noninterfering (host : Host) (context : Context host.alnum) : Prop :=
  (∀ (secret₁ secret₂ : SecretValue) (after : Suffix),
    redactText host.alnum (context.text secret₁ after) =
      redactText host.alnum (context.text secret₂ after)) ∧
  ∀ (writing : Writing) (secret₁ secret₂ : SecretValue) (after : Suffix) (draws : List Draw)
    (db : Database),
    stored host draws db (writing.call (context.text secret₁ after)) =
      stored host draws db (writing.call (context.text secret₂ after))

/-! ### Redaction at a place -/

section Redaction

variable {host : Host} {s s' : String}

theorem redactItems_append (l l' : List Value) :
    redactItems host (l ++ l') = redactItems host l ++ redactItems host l' := by
  induction l with
  | nil => rfl
  | cons v l ih => rw [List.cons_append, redactItems, redactItems, ih, List.cons_append]

/-- A text is redacted at its place. -/
theorem redact_fill (h : redactText host.alnum s = redactText host.alnum s') (place : Place) :
    redact host (place.fill s) = redact host (place.fill s') := by
  induction place with
  | here => rw [Place.fill, Place.fill, redact, redact, h]
  | item front inner back ih => simp only [Place.fill, redact, redactItems_append, redactItems, ih]
  | component front inner back ih =>
    simp only [Place.fill, redact, redactItems_append, redactItems, ih]
  | member front key inner back ih =>
    simp only [Place.fill, redact, redactEntries_append, redactEntries, ih]

theorem redactEntries_fill (h : redactText host.alnum s = redactText host.alnum s')
    (place : PayloadPlace) :
    redactEntries host (place.fill s) = redactEntries host (place.fill s') := by
  simp only [PayloadPlace.fill, redactEntries_append, redactEntries, redact_fill h place.inner]

end Redaction

/-! ### What is stored -/

section Stored

variable {host : Host} {s s' : String}

/-- A text is bound, whatever it is, and a value that holds one is not. -/
theorem bindText_fill (place : Place) :
    Alike (fun _ _ => True) (bindText host (place.fill s)) (bindText host (place.fill s')) := by
  cases place with
  | here => exact .ok trivial
  | item front inner back => exact .error _
  | component front inner back => exact .error _
  | member front key inner back => exact .error _

/-- A member is the value with the text, or has nothing of it. -/
theorem get_fill (s s' : String) (place : PayloadPlace) (key : String) :
    (place.fill s).get key = (place.fill s').get key ∨
      (place.fill s).get key = place.inner.fill s ∧
        (place.fill s').get key = place.inner.fill s' := by
  simp only [Mapping.get, Mapping.get?, PayloadPlace.fill, List.reverse_append, List.reverse_cons,
    List.append_assoc, List.singleton_append, List.lookup_append, List.lookup_cons]
  cases place.back.reverse.lookup (.str key) with
  | some v => exact Or.inl rfl
  | none =>
    cases Key.str key == place.key with
    | true => exact Or.inr ⟨rfl, rfl⟩
    | false => exact Or.inl rfl

/-- A run is read back whatever its `approval_id` is. -/
theorem reread_upToIds (runId : String) (db : Database) :
    (reread runId db.upToIds).map (fun _ => ()) = (reread runId db).map fun _ => () := by
  have hfind : db.upToIds.productRuns.find? runId =
      (db.productRuns.find? runId).map RunRow.upToIds := by
    rw [Database.upToIds, Table.find?_update]
    rfl
  rw [reread, reread, hfind]
  cases db.productRuns.find? runId with
  | none => rfl
  | some row =>
    change ((lifecycle row.upToIds).bind fun run => .ok (run, db.upToIds)).map _ =
      ((lifecycle row).bind fun run => .ok (run, db)).map _
    simp only [lifecycle, RunRow.upToIds]
    cases loads (textOr row.resultJson "\x7b\x7d") <;> rfl

theorem upToIds_updateProposal {proposalId tenantId : String} {f : ProposalRow → ProposalRow}
    {hf : Keeps ProposalRow.proposalId ProposalRow.requestKey (fun _ => true) f} (db : Database) :
    (updateProposal proposalId tenantId f hf db).upToIds =
      updateProposal proposalId tenantId f hf db.upToIds := rfl

/-- An `approval_id` that is written leaves the rows, but for itself. -/
theorem upToIds_updateRun {runId : String} {f f' : RunRow → RunRow}
    {hf : Keeps RunRow.runId RunRow.requestKey (fun _ => true) f}
    {hf' : Keeps RunRow.runId RunRow.requestKey (fun _ => true) f'}
    (h : ∀ r, (f r).upToIds = (f' r).upToIds) (db : Database) :
    (updateRun runId f hf db).upToIds = (updateRun runId f' hf' db).upToIds := by
  have hruns : ∀ g : RunRow → RunRow, setWhere (fun _ => true) RunRow.upToIds
      (setWhere (fun r => Decidable.decide (r.runId = runId)) g db.productRuns.rows) =
        db.productRuns.rows.map fun r => if r.runId = runId then (g r).upToIds else r.upToIds := by
    intro g
    rw [setWhere, setWhere, List.map_map]
    refine List.map_congr_left fun r _ => ?_
    by_cases hr : r.runId = runId <;> simp [hr]
  have htable : (updateRun runId f hf db).upToIds.productRuns =
      (updateRun runId f' hf' db).upToIds.productRuns := by
    apply Table.ext
    change setWhere _ _ (setWhere _ f _) = setWhere _ _ (setWhere _ f' _)
    rw [hruns, hruns]
    refine List.map_congr_left fun r _ => ?_
    rw [h]
  rw [Database.upToIds, Database.upToIds] at htable ⊢
  exact congrArg (fun t => { db with productRuns := t }) htable

/-- Rows that are the same but for identifiers are read back alike. -/
theorem reread_alike {runId : String} {db₁ db₂ : Database} (h : db₁.upToIds = db₂.upToIds) :
    Alike (fun r r' => r.2.upToIds = r'.2.upToIds) (reread runId db₁) (reread runId db₂) := by
  have hsame := (reread_upToIds runId db₁).symm.trans
    ((congrArg (fun db => (reread runId db).map fun _ => ()) h).trans (reread_upToIds runId db₂))
  have hback : ∀ {db : Database} {r}, reread runId db = .ok r → r.2 = db := by
    intro db r hr
    obtain ⟨row, -, hrow⟩ := bind_eq_ok.mp hr
    obtain ⟨run, -, hrun⟩ := bind_eq_ok.mp hrow
    rw [← Except.ok.inj hrun]
  cases h₁ : reread runId db₁ with
  | error e =>
    cases h₂ : reread runId db₂ with
    | error e' =>
      rw [h₁, h₂] at hsame
      rw [Except.error.inj hsame]
      exact .error e'
    | ok r =>
      rw [h₁, h₂] at hsame
      cases hsame
  | ok r =>
    cases h₂ : reread runId db₂ with
    | error e' =>
      rw [h₁, h₂] at hsame
      cases hsame
    | ok r' =>
      refine .ok ?_
      rw [hback h₁, hback h₂, h]

/-- A change of state leaves the same rows for texts with one redaction. -/
theorem transition_fill (h : redactText host.alnum s = redactText host.alnum s') (args : Move)
    (place : PayloadPlace) (d : Draw) (db : Database) :
    Alike (fun r r' => r.2.upToIds = r'.2.upToIds)
      (Kernel.transition host { args with payload := some (place.fill s) } d db)
      (Kernel.transition host { args with payload := some (place.fill s') } d db) := by
  have hsafe := redactEntries_fill h place
  have hbound : Alike (fun _ _ => True) (bindText host ((place.fill s).get "approval_id"))
      (bindText host ((place.fill s').get "approval_id")) := by
    rcases get_fill s s' place "approval_id" with hget | ⟨hget, hget'⟩
    · rw [hget]
      cases bindText host ((place.fill s').get "approval_id") with
      | error e => exact .error e
      | ok a => exact .ok trivial
    · rw [hget, hget']
      exact bindText_fill place.inner
  simp only [Kernel.transition, Move.safePayload, Option.getD_some, hsafe]
  refine alike_bind fun row => alike_bind fun state => alike_bind fun db₁ => alike_bind fun json =>
    alike_bind fun existing => alike_bind fun resultJson => hbound.bind fun a a' _ => reread_alike ?_
  -- the `approval_id` is all that the two updates write differently
  by_cases hproposal : given row.proposalId = true
  · simp only [if_pos hproposal, upToIds_updateProposal]
    refine congrArg _ (upToIds_updateRun ?_ db₁)
    exact fun _ => rfl
  · simp only [if_neg hproposal]
    refine upToIds_updateRun ?_ db₁
    exact fun _ => rfl

theorem createRun_fill (h : redactText host.alnum s = redactText host.alnum s') (args : NewRun)
    (place : PayloadPlace) (d : Draw) :
    Kernel.createRun host { args with payload := place.fill s } d =
      Kernel.createRun host { args with payload := place.fill s' } d := by
  have hhash : ∀ snapshot : Snapshot,
      requestHash host (NewRun.request { args with payload := place.fill s } snapshot) =
        requestHash host (NewRun.request { args with payload := place.fill s' } snapshot) := by
    intro snapshot
    simp only [requestHash, safeJson, NewRun.request, redact, redactEntries_append,
      redactEntries_fill h place]
  unfold Kernel.createRun
  simp only [hhash]
  rfl

theorem appendEvent_fill (h : redactText host.alnum s = redactText host.alnum s')
    (runId tenantId event : String) (place : PayloadPlace) (d : Draw) :
    Kernel.appendEvent host runId tenantId event (place.fill s) d =
      Kernel.appendEvent host runId tenantId event (place.fill s') d := by
  have hjson : safeJson host (.dict (place.fill s)) = safeJson host (.dict (place.fill s')) := by
    simp only [safeJson, redact, redactEntries_fill h place]
  unfold Kernel.appendEvent appendEventLocked
  simp only [hjson]

theorem saveCheckpoint_fill (h : redactText host.alnum s = redactText host.alnum s')
    (runId tenantId node : String) (place : PayloadPlace) (d : Draw) :
    Kernel.saveCheckpoint host runId tenantId node (place.fill s) d =
      Kernel.saveCheckpoint host runId tenantId node (place.fill s') d := by
  unfold Kernel.saveCheckpoint
  simp only [redact, redactEntries_fill h place]

theorem createProposal_fill (h : redactText host.alnum s = redactText host.alnum s')
    (hblank : blank s = blank s') (args : NewProposal) :
    Kernel.createProposal host { args with proposal := s } =
      Kernel.createProposal host { args with proposal := s' } := by
  have hsafe : NewProposal.safeProposal host { args with proposal := s } =
      NewProposal.safeProposal host { args with proposal := s' } := by
    simp only [NewProposal.safeProposal, h]
  have hrequest : ∀ snapshot : Snapshot,
      NewProposal.request host { args with proposal := s } snapshot =
        NewProposal.request host { args with proposal := s' } snapshot := by
    intro snapshot
    rw [NewProposal.request, NewProposal.request, hsafe]
  unfold Kernel.createProposal
  simp only [hblank, hrequest, hsafe]

/-- The state a transaction leaves, or the state before it when there is nothing to draw. -/
theorem run_perform_alike {op : StoreOp} {op' : StoreOp}
    (h : ∀ d db, (op.exec host d db).2.upToIds = (op'.exec host d db).2.upToIds)
    (draws : List Draw) (db : Database) :
    ((Prog.perform op).run (StoreOp.exec host) draws [] db).state.upToIds =
      ((Prog.perform op').run (StoreOp.exec host) draws [] db).state.upToIds := by
  cases draws with
  | nil => rfl
  | cons d draws => simpa [Prog.perform, Prog.run] using h d db

/-- **What is stored of texts with one redaction is the same.** -/
theorem stored_fill (h : redactText host.alnum s = redactText host.alnum s')
    (hblank : blank s = blank s') (writing : Writing) (draws : List Draw) (db : Database) :
    stored host draws db (writing.call s) = stored host draws db (writing.call s') := by
  cases writing with
  | proposal args =>
    simp only [stored, Writing.call, Call.program, createProposal_fill h hblank args]
  | run args place =>
    refine run_perform_alike (fun d db => ?_) draws db
    simp only [StoreOp.exec, createRun_fill h args place d]
  | move args place =>
    refine run_perform_alike (fun d db => ?_) draws db
    exact Alike.atomically (T := fun db db' : Database => db.upToIds = db'.upToIds) rfl
      (transition_fill h args place d db)
  | event runId tenantId name place =>
    refine run_perform_alike (fun d db => ?_) draws db
    simp only [StoreOp.exec, appendEvent_fill h runId tenantId name place d]
  | checkpoint runId tenantId node place =>
    refine run_perform_alike (fun d db => ?_) draws db
    simp only [StoreOp.exec, saveCheckpoint_fill h runId tenantId node place d]

end Stored

/-! ### Noninterference -/

section Noninterference

variable {alnum : Char → Bool} {b : Bool} {s : List Char}

theorem filled (secret : SecretValue) : Filled secret.text.toList := by
  refine ⟨fun hnil => secret.ne ?_, secret.chars⟩
  rw [← String.toList_inj, hnil]
  rfl

theorem toList_text (context : Context alnum) (secret : SecretValue) (after : Suffix) :
    (context.text secret after).toList =
      context.front.toList ++ (secret.text.toList ++ after.text.toList) := by
  simp [Context.text]

theorem toList_front (context : Context alnum) : context.front.toList =
    context.before.toList ++ context.naming.name.toList ++ context.left.toList ++
      context.sep.char :: (context.right.toList ++ context.naming.lead.toList) := by
  simp [Context.front]

/-- The last characters that are not blank are the same. -/
theorem eq_of_blank_tails {p q x y : List Char} {c d : Char} (hx : ∀ z ∈ x, isSpace z = true)
    (hy : ∀ z ∈ y, isSpace z = true) (hc : isSpace c = false) (hd : isSpace d = false)
    (h : p ++ c :: x = q ++ d :: y) : c = d := by
  have hreverse := congrArg List.reverse h
  simp only [List.reverse_append, List.reverse_cons, List.append_assoc,
    List.singleton_append] at hreverse
  obtain ⟨-, htail⟩ := Substitution.append_unique (by simpa using hx) (by simpa using hy)
    (by simpa using hc) (by simpa using hd) hreverse
  exact (List.cons.inj htail).1

/-- Right behind a separator and blanks, a text is ready. -/
theorem ready_front {context : Context alnum} (h : context.naming.Plain) :
    Ready context.front.toList := by
  intro p c y hsplit hy hc
  have hlead : context.naming.lead.toList = [] := by
    cases hnaming : context.naming with
    | key name named => rfl
    | scheme name named word ne chars =>
      rw [hnaming] at h
      exact h.elim
  rw [toList_front, hlead, List.append_nil] at hsplit
  rw [← eq_of_blank_tails context.right_blank hy (isSpace_of_isSep context.sep.isSep) hc hsplit]
  exact context.sep.isSep

theorem mem_credentialWords : ∀ word ∈ plainKeys, word ∈ credentialWords := by decide +kernel

/-- A key covers its secret, if nothing is found in the text in front of the key. -/
theorem covers_front {context : Context alnum} (h : context.naming.Plain) {rest : List Char}
    (hrest : context.front.toList = context.before.toList ++ rest)
    (hkey : Substitution.ClearIn (wordChar alnum) (keyPattern alnum) false
      context.before.toList rest)
    (hcredential : Substitution.ClearIn (wordChar alnum) (credentialPattern alnum) false
      context.before.toList rest) : Covers alnum false context.front.toList := by
  cases hnaming : context.naming with
  | scheme name named word ne chars =>
    rw [hnaming] at h
    exact h.elim
  | key name named =>
    have hsplit := hrest
    rw [toList_front, hnaming, List.append_assoc, List.append_assoc] at hsplit
    have hopening : Opening rest :=
      ⟨name.toList, context.left.toList, context.sep.char, context.right.toList,
        mem_credentialWords _ named, context.left_blank, context.sep.isSep, context.right_blank,
        by simpa [Naming.name, Naming.lead] using (List.append_cancel_left hsplit).symm⟩
    rw [hrest]
    refine covers_of_clearIn hopening hkey hcredential ?_
    rcases List.eq_nil_or_concat context.before.toList with hnil | ⟨m, c, hm⟩
    · rw [hnil]
      rfl
    · rw [hm, List.concat_eq_append, Substitution.after_append]
      exact context.boundary c (by rw [hm, List.concat_eq_append]; simp)

/-- A covered text ends in a value, or in front of one. -/
theorem Covers.front (h : Covers alnum b s) : ∃ p l run, s = p ++ (l ++ run) ∧ Opening l ∧
    ∀ c ∈ run, valueChar c = true := by
  induction h with
  | @value l run hl hrun => exact ⟨[], l, run, rfl, hl, hrun⟩
  | key hfound hnext ih =>
    obtain ⟨p, l, run, rfl, hl, hrun⟩ := ih
    obtain ⟨u, c, rfl, -⟩ := lawful_key.consumes hfound
    exact ⟨u ++ c :: p, l, run, by simp, hl, hrun⟩
  | credential hfound hnext ih =>
    obtain ⟨p, l, run, rfl, hl, hrun⟩ := ih
    obtain ⟨u, c, rfl, -⟩ := lawful_credential.consumes hfound
    exact ⟨u ++ c :: p, l, run, by simp, hl, hrun⟩
  | @skip b c s hkey hcredential hnext ih =>
    obtain ⟨p, l, run, rfl, hl, hrun⟩ := ih
    exact ⟨c :: p, l, run, rfl, hl, hrun⟩

/-- A scheme and a space are no separator: what they are in front of is not covered. -/
theorem not_covers_scheme {context : Context alnum} (h : ¬ context.naming.Plain) :
    ¬ Covers alnum b context.front.toList ∧
      ∀ c ∈ context.front.toList.getLast?, keyChar c = false := by
  cases hnaming : context.naming with
  | key name named =>
    rw [hnaming] at h
    exact absurd trivial h
  | scheme name named word ne chars =>
    obtain ⟨m, d, hword⟩ : ∃ m d, word.toList = m ++ [d] := by
      rcases List.eq_nil_or_concat word.toList with hnil | ⟨m, d, hm⟩
      · exact absurd (String.toList_inj.mp hnil) ne
      · exact ⟨m, d, by rw [hm, List.concat_eq_append]⟩
    have hd : isSep d = false ∧ isSpace d = false := by
      rcases chars d (by rw [hword]; simp) with hd | rfl
      · refine ⟨?_, isSpace_of_wordChar hd⟩
        by_contra hsep
        rw [Bool.not_eq_false] at hsep
        rw [wordChar_of_isSep hsep] at hd
        cases hd
      · exact ⟨rfl, rfl⟩
    obtain ⟨q, hq⟩ : ∃ q, context.front.toList = q ++ d :: [' '] := by
      refine ⟨context.before.toList ++ name.toList ++ context.left.toList ++
        context.sep.char :: (context.right.toList ++ m), ?_⟩
      rw [toList_front, hnaming]
      simp [Naming.name, Naming.lead, hword]
    rw [hq]
    refine ⟨fun hcovers => ?_, fun c hc => ?_⟩
    · obtain ⟨p, l, run, heq, ⟨u, x, sep, y, -, -, hsep, hy, rfl⟩, hrun⟩ := hcovers.front
      rcases List.eq_nil_or_concat run with rfl | ⟨run, e, rfl⟩
      · rw [List.append_nil, ← List.append_assoc, ← List.append_assoc] at heq
        have hsame := eq_of_blank_tails (x := [' ']) (by simp [isSpace]) hy hd.2
          (isSpace_of_isSep hsep) heq
        rw [← hsame, hd.1] at hsep
        cases hsep
      · have hlast := congrArg List.getLast? heq
        simp only [List.concat_eq_append, ← List.append_assoc, List.getLast?_append_cons,
          List.getLast?_cons_cons, List.getLast?_singleton, Option.some.injEq] at hlast
        have hvalue := hrun e (by simp)
        rw [← hlast] at hvalue
        exact absurd hvalue (by decide)
    · rw [List.getLast?_append_cons] at hc
      obtain rfl : ' ' = c := by simpa using hc
      rfl

theorem singleton_ne (z : Char) : String.ofList [z] ≠ "" := by simp

theorem Mark.chars {z : Char} (hz : Mark alnum z) :
    ∀ c ∈ (String.ofList [z]).toList, valueChar c = true := by
  simpa using hz.value

/-- Secrets of one mark, which tell a text that is not covered. -/
def markSecret (z : Char) (hz : Mark alnum z) : SecretValue where
  text := String.ofList [z]
  ne := singleton_ne z
  chars := hz.chars

/-- Nothing behind a secret. -/
def noSuffix : Suffix := ⟨"", by simp⟩

theorem mark_exclamation : Mark alnum '!' := ⟨rfl, rfl, rfl, rfl⟩

theorem mark_question : Mark alnum '?' := ⟨rfl, rfl, rfl, rfl⟩

theorem blank_text (context : Context alnum) (secret : SecretValue) (after : Suffix) :
    blank (context.text secret after) = false := by
  obtain ⟨hne, hchars⟩ := filled secret
  obtain ⟨c, v, hv⟩ := List.exists_cons_of_ne_nil hne
  have hc := isSpace_of_valueChar (hchars c (by simp [hv]))
  rw [blank, toList_text, hv, List.all_eq_false]
  exact ⟨c, by simp, by simp [hc]⟩

/-- A covered secret is hidden. -/
theorem redactText_of_covers {context : Context alnum} (hplain : context.naming.Plain)
    (h : Covers alnum false context.front.toList) (secret₁ secret₂ : SecretValue) (after : Suffix) :
    redactText alnum (context.text secret₁ after) = redactText alnum (context.text secret₂ after) := by
  obtain ⟨w, hw⟩ := h.hides (ready_front hplain)
  obtain ⟨r, hr⟩ : ∃ r, Reads alnum false after.text.toList r := exists_reads false _
  have hall : ∀ secret : SecretValue, redactChars alnum (context.text secret after).toList =
      Substitution.substitute (wordChar alnum) (sensitivePattern alnum) sensitiveToken (w ++ r) := by
    intro secret
    rw [toList_text]
    exact redactChars_eq (hw _ _ _ (filled secret) after.ends hr)
  rw [redactText, redactText, hall, hall]

/-- A mark that is not covered is shown. -/
theorem redactText_markSecret {context : Context alnum} {z : Char} (hz : Mark alnum z)
    (hlast : ∀ c ∈ context.front.toList.getLast?, keyChar c = false)
    (h : ¬ Covers alnum false context.front.toList) :
    (redactText alnum (context.text (markSecret z hz) noSuffix)).toList.getLast? = some z := by
  obtain ⟨w, hw⟩ := redactChars_of_not_covers hz hlast h
  have htext : (context.text (markSecret z hz) noSuffix).toList = context.front.toList ++ [z] := by
    simp [toList_text, markSecret, noSuffix]
  rw [redactText, String.toList_ofList, htext, hw, List.getLast?_concat]

/-- **One secret stands for another exactly where it is covered**: where the reading of the
text in front of it ends in a credential's value, and no scheme is that value. -/
theorem noninterference_iff (host : Host) (context : Context host.alnum) :
    Noninterfering host context ↔
      context.naming.Plain ∧ Covers host.alnum false context.front.toList := by
  constructor
  · intro h
    by_contra hnot
    have hopen : ¬ Covers host.alnum false context.front.toList ∧
        ∀ c ∈ context.front.toList.getLast?, keyChar c = false := by
      by_cases hplain : context.naming.Plain
      · exact ⟨fun hcovers => hnot ⟨hplain, hcovers⟩, (ready_front hplain).last⟩
      · exact not_covers_scheme hplain
    have hsame := h.1 (markSecret '!' (@mark_exclamation host.alnum))
      (markSecret '?' (@mark_question host.alnum)) noSuffix
    have hshown := redactText_markSecret mark_exclamation hopen.2 hopen.1
    rw [hsame, redactText_markSecret mark_question hopen.2 hopen.1] at hshown
    exact absurd hshown (by decide)
  · rintro ⟨hplain, hcovers⟩
    refine ⟨redactText_of_covers hplain hcovers, fun writing secret₁ secret₂ after draws db => ?_⟩
    refine stored_fill (redactText_of_covers hplain hcovers secret₁ secret₂ after) ?_ writing draws db
    rw [blank_text, blank_text]

theorem blank_empty : ∀ c ∈ "".toList, isSpace c = true := by simp

theorem blank_space : ∀ c ∈ " ".toList, isSpace c = true := by simp [isSpace]

theorem boundary_empty : ∀ c ∈ "".toList.getLast?, wordChar sampleHost.alnum c = false := by simp

theorem boundary_mark : ∀ c ∈ "sk-".toList.getLast?, wordChar sampleHost.alnum c = false := by
  simp [wordChar, decimal, decimalZeros]

theorem password_named : "password".toList.map folded ∈ plainKeys := by decide +kernel

theorem authorization_named : "authorization".toList.map folded = "authorization".toList := by
  decide +kernel

/-- `sk-password=` -/
def swallowedPassword : Context sampleHost.alnum where
  before := "sk-"
  boundary := boundary_mark
  naming := .key "password" password_named
  left := ""
  sep := .equals
  right := ""
  left_blank := blank_empty
  right_blank := blank_empty

theorem bearer_ne : "Bearer" ≠ "" := by decide

theorem bearer_letters :
    ∀ c ∈ "Bearer".toList, wordChar sampleHost.alnum c = true ∨ c = '-' := by
  have hall : "Bearer".toList.all (fun c => Decidable.decide (wordChar sampleHost.alnum c = true)) =
      true := by decide +kernel
  exact fun c hc => Or.inl (of_decide_eq_true (List.all_eq_true.mp hall c hc))

/-- `authorization: Bearer ` -/
def bearer : Context sampleHost.alnum where
  before := ""
  boundary := boundary_empty
  naming := .scheme "authorization" authorization_named "Bearer" bearer_ne bearer_letters
  left := ""
  sep := .colon
  right := " "
  left_blank := blank_empty
  right_blank := blank_space

/-- The two credentials. -/
def hunter : SecretValue := ⟨"hunter2", by decide, forall_mem_of_all (by decide +kernel)⟩

/-- The other credential. -/
def xyzzy : SecretValue := ⟨"xyzzy", by decide, forall_mem_of_all (by decide +kernel)⟩

/-- A key takes the word of a password with it, and a scheme is taken for the credential. -/
theorem secrets_told : swallowedPassword.text hunter noSuffix = "sk-password=hunter2" ∧
    redactText sampleHost.alnum "sk-password=hunter2" = "[REDACTED_KEY]=hunter2" ∧
    ¬ Noninterfering sampleHost swallowedPassword ∧
    bearer.text hunter noSuffix = "authorization: Bearer hunter2" ∧
    redactText sampleHost.alnum "authorization: Bearer hunter2" = "[REDACTED_CREDENTIAL] hunter2" ∧
    ¬ Noninterfering sampleHost bearer := by
  have hpassword : redactText sampleHost.alnum "sk-password=hunter2" = "[REDACTED_KEY]=hunter2" := by
    decide +kernel
  have hother : redactText sampleHost.alnum "sk-password=xyzzy" = "[REDACTED_KEY]=xyzzy" := by
    decide +kernel
  have hbearer : redactText sampleHost.alnum "authorization: Bearer hunter2" =
      "[REDACTED_CREDENTIAL] hunter2" := by decide +kernel
  have hbearer' : redactText sampleHost.alnum "authorization: Bearer xyzzy" =
      "[REDACTED_CREDENTIAL] xyzzy" := by decide +kernel
  refine ⟨rfl, hpassword, fun h => ?_, by decide +kernel, hbearer, fun h => ?_⟩
  · have hsame : redactText sampleHost.alnum "sk-password=hunter2" =
        redactText sampleHost.alnum "sk-password=xyzzy" := h.1 hunter xyzzy noSuffix
    rw [hpassword, hother] at hsame
    exact absurd hsame (by decide)
  · have hsame : redactText sampleHost.alnum "authorization: Bearer hunter2" =
        redactText sampleHost.alnum "authorization: Bearer xyzzy" := h.1 hunter xyzzy noSuffix
    rw [hbearer, hbearer'] at hsame
    exact absurd hsame (by decide)

end Noninterference

end AiSaas.Kernel
