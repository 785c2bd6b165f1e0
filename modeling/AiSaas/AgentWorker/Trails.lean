import AiSaas.AgentWorker.Runtime
import AiSaas.RunService.Service

/-!
# What the programs have done

A process of the run services creates, approves, cancels or executes a run.  For
each of the four programs, what it has done whenever it asks for an operation is
read off its text once; every later argument about interleavings starts from it.

## Main definitions

* `Task`, `runSystem` — the four kinds of process, and the system they run on.
* `looksAt`, `seesCancel`, `asksApproval`, `callsModel` — a look at a run, one that
  sees its cancellation requested, a checkpoint that asks for approval, a model call.
* `lastSaved`, `firstRead` — the latest checkpoint a past saved, the first it read.
* `Holding`, `Settled` — a worker has claimed a run with a reservation; a
  reservation was released or committed.
* `Task.Does` — what each kind of process has done before each operation.

## Main results

* `BoundedWorker.execute_trail`, `RunService.createRun_trail`,
  `RunService.cancel_trail`, `RunService.approve_trail` — the programs do it.
* `program_trail` — all four.
-/

namespace AiSaas

open Processes

/-! ### The system -/

/-- What a process does. -/
inductive Task where
  | createRun (uuid : String) (request : RunCreate)
  | approve (runId tenantId : String)
  | cancel (runId tenantId : String)
  | execute (runId : String)

/-- Any number of processes of a service and a worker over the same stores. -/
def runSystem (policy : QuotaPolicy) (service : RunService) (worker : BoundedWorker) :
    System Task Op Op.Answer Error Run RunWorld Drawn where
  program
    | .createRun uuid request => service.createRun uuid request
    | .approve r t => RunService.approve r t
    | .cancel r t => RunService.cancel r t
    | .execute r => worker.execute r
  exec := RunWorld.exec worker.lib policy

/-! ### Reading a past -/

/-- The run a worker's look at it was answered with. -/
def looksAt : Answered → Option (String × Run)
  | ⟨.runs (.get r none), .ok run⟩ => some (r, run)
  | _ => none

/-- A look at a run whose cancellation was requested. -/
def seesCancel (e : Answered) : Bool := (looksAt e).any fun seen => seen.2.cancelRequested

/-- Step and key of the latest checkpoint saved. -/
def lastSaved : Past → Option (ℤ × Option String)
  | [] => none
  | ⟨.runs (.saveCheckpoint _ step _ key _ _), _⟩ :: _ => some (step, key)
  | _ :: h => lastSaved h

/-- The first checkpoint read. -/
def firstRead : Past → Option (Option Checkpoint)
  | [] => none
  | ⟨.runs (.checkpoint _), .ok checkpoint⟩ :: h => (firstRead h).or (some checkpoint)
  | _ :: h => firstRead h

/-- A checkpoint was saved that asks for approval. -/
def asksApproval : Answered → Prop
  | ⟨.runs (.saveCheckpoint _ _ _ _ (some approvalId) _), .ok _⟩ => approvalId ≠ ""
  | _ => False

/-- A call of the model. -/
def callsModel : Answered → Bool
  | ⟨.model .., _⟩ => true
  | _ => false

/-- An operation that is no call of the run store. -/
def plain : Answered → Prop
  | ⟨.runs _, _⟩ => False
  | _ => True

/-- A past with plain operations on top. -/
def Adds (h h' : Past) : Prop := ∃ new, h' = new ++ h ∧ ∀ e ∈ new, plain e

variable {h h' h'' : Past} {r id key : String} {run : Run} {e : Answered}

theorem Adds.refl (h : Past) : Adds h h := ⟨[], rfl, fun _ he => absurd he List.not_mem_nil⟩

theorem Adds.cons (hadds : Adds h h') (he : plain e) : Adds h (e :: h') := by
  obtain ⟨new, rfl, hnew⟩ := hadds
  refine ⟨e :: new, rfl, ?_⟩
  intro x hx
  rcases List.mem_cons.mp hx with rfl | hx
  · exact he
  · exact hnew x hx

theorem Adds.subset (hadds : Adds h h') : h ⊆ h' := by
  obtain ⟨new, rfl, -⟩ := hadds
  exact List.subset_append_right new h

/-- Nothing in a past asks for approval, and no look at the run saw its
cancellation requested. -/
def Unasked (h : Past) : Prop := ∀ e ∈ h, ¬ asksApproval e ∧ seesCancel e = false

theorem Unasked.cons (hunasked : Unasked h) (he : ¬ asksApproval e ∧ seesCancel e = false) :
    Unasked (e :: h) := by
  intro x hx
  rcases List.mem_cons.mp hx with rfl | hx
  · exact he
  · exact hunasked x hx

/-- What plain operations do not change. -/
theorem Adds.same (hadds : Adds h h') : lastSaved h' = lastSaved h ∧ firstRead h' = firstRead h ∧
    (Unasked h → Unasked h') := by
  obtain ⟨new, rfl, hnew⟩ := hadds
  induction new with
  | nil => exact ⟨rfl, rfl, fun h => h⟩
  | cons e new ih =>
    obtain ⟨hsaved, hread, hunasked⟩ := ih fun x hx => hnew x (List.mem_cons_of_mem e hx)
    have he := hnew e List.mem_cons_self
    rw [List.cons_append]
    obtain ⟨op, answer⟩ := e
    cases op with
    | runs call => exact he.elim
    | _ => exact ⟨hsaved, hread, fun hnone => (hunasked hnone).cons ⟨fun hasks => hasks, rfl⟩⟩

/-- A worker has claimed a run that has a reservation. -/
structure Holding (h : Past) (r : String) (run : Run) (id : String) : Prop where
  claimed : (⟨.runs (.claim r), .ok run⟩ : Answered) ∈ h
  active : run.state = .queued ∨ run.state = .running
  reservation : present run.reservationId = some id

theorem Holding.mono (hholds : Holding h r run id) (hsub : h ⊆ h') : Holding h' r run id :=
  ⟨hsub hholds.claimed, hholds.active, hholds.reservation⟩

/-- A reservation was released or committed. -/
def Settled (h : Past) (id : String) : Prop :=
  (∃ key res, (⟨.release id key, .ok res⟩ : Answered) ∈ h) ∨
    ∃ u key com, (⟨.commit id u key, .ok com⟩ : Answered) ∈ h

theorem Settled.mono (hsettled : Settled h id) (hsub : h ⊆ h') : Settled h' id := by
  rcases hsettled with ⟨key, res, hmem⟩ | ⟨u, key, com, hmem⟩
  · exact Or.inl ⟨key, res, hsub hmem⟩
  · exact Or.inr ⟨u, key, com, hsub hmem⟩

/-! ### The worker -/

namespace BoundedWorker

/-- A checkpoint with this content was read. -/
def Read (h : Past) (r : String) (checkpoint : Option Checkpoint) : Prop :=
  (⟨.runs (.checkpoint r), .ok checkpoint⟩ : Answered) ∈ h

/-- What `execute` has done before an operation. -/
def Does (r : String) (h : Past) : Op → Prop
  | .runs (.claim r') => r' = r ∧ h = []
  | .runs (.checkpoint r') | .runs (.appendToken r' _) | .runs (.get r' none) =>
    r' = r ∧ ∃ run id, Holding h r run id
  | .runs (.saveCheckpoint r' step _ key _ _) => r' = r ∧ (∃ run id, Holding h r run id) ∧
    (∃ first, Read h r first ∧ first.elim 0 (·.step) ≤ step) ∧
    (key = none ∨ ∃ s : LoopState, s.step = step ∧ Read h r s.checkpoint ∧
      key = some (inflightKey r s))
  | .runs (.transition r' state payload) => r' = r ∧ payload.lookup "state" = none ∧
    ∃ run id, Holding h r run id ∧
      (state = .waitingApproval ∨ state = .cancelled ∧ Settled h id)
  | .runs (.fail r' _) => r' = r ∧ ((∃ run id, Holding h r run id ∧ Settled h id) ∨
      ∃ run, h = [⟨.runs (.claim r), .ok run⟩] ∧ present run.reservationId = none)
  | .runs (.complete r' u) => r' = r ∧ (∃ run id com, Holding h r run id ∧
      (⟨.commit id u (commitKey r), .ok com⟩ : Answered) ∈ h) ∧ Unasked h
  | .model _ key _ => ∃ run id, Holding h r run id ∧ Unasked h ∧
    ∃ s : LoopState, Read h r s.checkpoint ∧ key = inflightKey r s ∧
      lastSaved h = some (s.step, some key) ∧ s.step < run.maxSteps ∧
      ∃ first, firstRead h = some first ∧ Read h r first ∧
        (first.elim false fun c => isTrue c "done") = false ∧ first.elim 0 (·.step) ≤ s.step ∧
        s.step < first.elim 0 (·.step) + run.maxModelCalls.toNat
  | .release id _ | .commit id _ _ => ∃ run, Holding h r run id
  | .clock | .outside _ => True
  | _ => False

variable {worker : BoundedWorker} {claimed : Claimed} {s : LoopState} {left : ℕ}

/-- A release or a commit for a held reservation, and no more. -/
theorem settleOrRelease_trail (hholds : Holding h r run id) (u : ℤ) :
    (settleOrRelease id u r).Trail (Does r)
      (fun h' answer => Adds h h' ∧ ∀ ok, answer = .ok ok → Settled h' id) h := by
  have hadds := Adds.refl h
  unfold settleOrRelease
  split
  · refine ⟨⟨run, hholds⟩, ?_⟩
    intro answer
    cases answer with
    | error e => exact ⟨hadds.cons trivial, fun _ hok => by cases hok⟩
    | ok res => exact ⟨hadds.cons trivial, fun _ _ => Or.inl ⟨_, res, List.mem_cons_self⟩⟩
  · refine ⟨⟨run, hholds⟩, ?_⟩
    intro answer
    cases answer with
    | ok com => exact ⟨hadds.cons trivial, fun _ _ => Or.inr ⟨u, _, com, List.mem_cons_self⟩⟩
    | error e =>
      change Prog.Trail _ _ _ (if e.isValueError then _ else _)
      split
      · have htried : Adds h (⟨.commit id u (commitKey r), .error e⟩ :: h) := hadds.cons trivial
        refine ⟨⟨run, hholds.mono htried.subset⟩, ?_⟩
        intro answer
        cases answer with
        | error e => exact ⟨htried.cons trivial, fun _ hok => by cases hok⟩
        | ok res => exact ⟨htried.cons trivial, fun _ _ => Or.inl ⟨_, res, List.mem_cons_self⟩⟩
      · exact ⟨hadds.cons trivial, fun _ hok => by cases hok⟩

/-- Where the loop begins a turn. -/
structure Looping (h : Past) (r : String) (claimed : Claimed) (left : ℕ) (s : LoopState) :
    Prop where
  holding : Holding h r claimed.run claimed.reservation
  unasked : Unasked h
  read : Read h r s.checkpoint
  start : ∃ first, firstRead h = some first ∧ Read h r first ∧
    (first.elim false fun c => isTrue c "done") = false ∧ first.elim 0 (·.step) ≤ s.step ∧
    s.step + left = first.elim 0 (·.step) + claimed.run.maxModelCalls.toNat

/-- A settled run is moved to its end. -/
theorem settled_bind_trail (hholds : Holding h r run id) (u : ℤ) {last : Program Run}
    (hlast : ∀ h', Holding h' r run id → Settled h' id →
      last.Trail (Does r) (fun _ _ => True) h') :
    (settleOrRelease id u r >>= fun _ => last).Trail (Does r) (fun _ _ => True) h := by
  refine (settleOrRelease_trail hholds u).bind ?_ fun _ _ _ => trivial
  intro h' _ ⟨hadds, hsettled⟩
  exact hlast h' (hholds.mono hadds.subset) (hsettled _ rfl)

theorem fail_trail {reason : String} (hholds : Holding h r run id) (hsettled : Settled h id) :
    (askStore (.fail r reason)).Trail (Does r) (fun _ _ => True) h :=
  ⟨⟨rfl, Or.inl ⟨run, id, hholds, hsettled⟩⟩, fun _ => trivial⟩

theorem exhausted_trail (hholds : Holding h r claimed.run claimed.reservation) :
    (exhausted claimed r s).Trail (Does r) (fun _ _ => True) h :=
  settled_bind_trail hholds s.usedUnits fun _ => fail_trail

/-- The call of the model adds plain operations only. -/
theorem callModel_trail {step : ℤ} {key : String}
    (hmodel : ∀ h', Adds h h' → ∀ timeout, Does r h' (.model (worker.prompt claimed.run) key timeout)) :
    (worker.callModel claimed step key).Trail (Does r) (fun h' _ => Adds h h') h := by
  have hask : ∀ h', Adds h h' → Prog.Trail (Does r) (fun h' _ => Adds h h') h'
      (do
        let now ← askClock
        Prog.perform (Op.model (worker.prompt claimed.run) key
          (max (1 / 100) (claimed.deadline - now))) : Program ModelResult) := by
    intro h' hadds
    refine Prog.trail_perform_bind.mpr ⟨trivial, fun e => hadds.cons trivial, ?_⟩
    intro now
    have hread : Adds h (⟨.clock, .ok now⟩ :: h') := hadds.cons trivial
    exact ⟨hmodel _ hread _, fun _ => hread.cons trivial⟩
  have hadds := Adds.refl h
  unfold callModel
  split
  · refine Prog.trail_perform_bind.mpr ⟨trivial, fun e => hadds.cons trivial, ?_⟩
    intro started
    have hspan := hadds.cons (e := ⟨.outside _, .ok started⟩) trivial
    refine Prog.Trail.bind (M := fun h' _ => Adds h h') (Prog.Trail.attempt ((hask _ hspan).bind ?_ ?_)
      (fun _ _ h => h)) ?_ (fun _ _ h => h)
    · intro h' result hadds'
      refine Prog.trail_perform_bind.mpr ⟨trivial, fun e => hadds'.cons trivial, ?_⟩
      intro done
      exact hadds'.cons trivial
    · exact fun _ _ h => h
    · intro h' result hadds'
      refine Prog.trail_perform_bind.mpr ⟨trivial, fun e => hadds'.cons trivial, ?_⟩
      intro ended
      cases result with
      | ok result => exact hadds'.cons trivial
      | error e => exact hadds'.cons trivial
  · exact hask h hadds

theorem callHook_trail {hook : Bool} {call : Outside} {M : Past → Except Error Unit → Prop}
    (hM : ∀ h' answer, Adds h h' → M h' answer) :
    (callHook hook call).Trail (Does r) M h := by
  unfold callHook
  split
  · exact ⟨trivial, fun answer => hM _ answer ((Adds.refl h).cons trivial)⟩
  · exact hM h _ (Adds.refl h)

theorem awaitApproval_trail {approvalId : String} (hholds : Holding h r run id) :
    (awaitApproval r approvalId).Trail (Does r) (fun _ _ => True) h := by
  refine Prog.trail_perform_bind.mpr ⟨⟨rfl, run, id, hholds⟩, fun _ => trivial, ?_⟩
  intro token
  exact ⟨⟨rfl, rfl, run, id, hholds.mono (List.subset_cons_self _ h), Or.inl rfl⟩, fun _ => trivial⟩

/-- A run is completed by the worker whose commit went through. -/
theorem finish_trail (hholds : Holding h r claimed.run claimed.reservation)
    (hunasked : Unasked h) (u : ℤ) :
    (worker.finish claimed r u).Trail (Does r) (fun _ _ => True) h := by
  refine Prog.trail_attempt_bind.mpr ⟨⟨_, hholds⟩, ?_⟩
  intro answer
  cases answer with
  | error e =>
    have htried : Holding (⟨.commit claimed.reservation u (commitKey r), .error e⟩ :: h) r
        claimed.run claimed.reservation := hholds.mono (List.subset_cons_self _ h)
    refine Prog.Trail.ite (c := e.isValueError = true) (fun _ => ?_) fun _ => trivial
    exact settled_bind_trail htried 0 fun _ => fail_trail
  | ok com =>
    have hcommitted : Adds h (⟨.commit claimed.reservation u (commitKey r), .ok com⟩ :: h) :=
      (Adds.refl h).cons trivial
    refine (callHook_trail (M := fun h' _ => Adds
      (⟨.commit claimed.reservation u (commitKey r), .ok com⟩ :: h) h') fun _ _ hadds => hadds).bind
      ?_ fun _ _ _ => trivial
    intro h' called hadds
    refine ⟨⟨rfl, ⟨_, _, com, (hholds.mono hcommitted.subset).mono hadds.subset,
      hadds.subset List.mem_cons_self⟩, ?_⟩, fun _ => trivial⟩
    exact hadds.same.2.2 (hcommitted.same.2.2 hunasked)

/-- **A turn of the loop, from the model's answer on.** -/
theorem record_trail {result : ModelResult} {again : LoopState → Program Run}
    (hloop : Looping h r claimed (left + 1) s)
    (hagain : ∀ h' s', Looping h' r claimed left s' →
      (again s').Trail (Does r) (fun _ _ => True) h') :
    (worker.record claimed r s result again).Trail (Does r) (fun _ _ => True) h := by
  unfold record
  refine (callHook_trail (M := fun h' _ => Adds h h') fun _ _ hadds => hadds).bind ?_
    fun _ _ _ => trivial
  intro h' called hadds
  obtain ⟨first, hfirst, hread, hdone, hle, hcount⟩ := hloop.start
  have hholds := hloop.holding.mono hadds.subset
  refine Prog.trail_perform_bind.mpr
    ⟨⟨rfl, ⟨_, _, hholds⟩, ⟨first, hadds.subset hread, by omega⟩, Or.inl rfl⟩, fun _ => trivial, ?_⟩
  intro saved
  have hsaved : Holding (⟨.runs (.saveCheckpoint r (s.step + 1) (resultState (s.step + 1) result) none
      result.approvalId (s.usedUnits + result.usageUnits)), .ok saved⟩ :: h') r claimed.run
      claimed.reservation := hholds.mono (List.subset_cons_self _ h')
  cases hid : present result.approvalId with
  | some approvalId => exact awaitApproval_trail hsaved
  | none =>
    refine Prog.trail_perform_bind.mpr ⟨⟨rfl, _, _, hsaved⟩, fun _ => trivial, ?_⟩
    intro token
    have htoken := hsaved.mono (List.subset_cons_self (⟨.runs (.appendToken r result.output),
      .ok token⟩) _)
    refine Prog.trail_perform_bind.mpr ⟨⟨rfl, _, _, htoken⟩, fun _ => trivial, ?_⟩
    intro checkpoint
    have hnow := htoken.mono (List.subset_cons_self (⟨.runs (.checkpoint r), .ok checkpoint⟩) _)
    -- an approval id that is not there, or empty, asks for nothing
    have hunasked₁ : Unasked (⟨.runs (.saveCheckpoint r (s.step + 1)
        (resultState (s.step + 1) result) none result.approvalId
        (s.usedUnits + result.usageUnits)), .ok saved⟩ :: h') := by
      refine (hadds.same.2.2 hloop.unasked).cons ⟨?_, rfl⟩
      cases happroval : result.approvalId with
      | none => exact fun hasks => hasks
      | some approvalId =>
        rw [happroval] at hid
        intro hasks
        have hne : approvalId ≠ "" := hasks
        simp [present, Option.filter, hne] at hid
    have hunasked : Unasked (⟨.runs (.checkpoint r), .ok checkpoint⟩ ::
        ⟨.runs (.appendToken r result.output), .ok token⟩ ::
        ⟨.runs (.saveCheckpoint r (s.step + 1) (resultState (s.step + 1) result) none
          result.approvalId (s.usedUnits + result.usageUnits)), .ok saved⟩ :: h') :=
      Unasked.cons (Unasked.cons hunasked₁ ⟨fun hasks => hasks, rfl⟩) ⟨fun hasks => hasks, rfl⟩
    change Prog.Trail _ _ _ (if result.done then _ else _)
    split
    · exact finish_trail hnow hunasked _
    · refine hagain _ _ ⟨hnow, hunasked, List.mem_cons_self, first, ?_, ?_, hdone, ?_, ?_⟩
      · change (firstRead h').or (some checkpoint) = some first
        rw [hadds.same.2.1, hfirst]
        rfl
      · exact List.mem_cons_of_mem _ (List.mem_cons_of_mem _ (List.mem_cons_of_mem _
          (hadds.subset hread)))
      · change first.elim 0 (·.step) ≤ s.step + 1
        omega
      · change s.step + 1 + left = _
        rw [← hcount]
        push_cast
        ring

/-- **A turn of the loop.** -/
theorem iterate_trail {again : LoopState → Program Run} (hloop : Looping h r claimed (left + 1) s)
    (hstep : s.step < claimed.run.maxSteps)
    (hagain : ∀ h' s', Looping h' r claimed left s' →
      (again s').Trail (Does r) (fun _ _ => True) h') :
    (worker.iterate claimed r s again).Trail (Does r) (fun _ _ => True) h := by
  refine Prog.trail_perform_bind.mpr ⟨⟨rfl, _, _, hloop.holding⟩, fun _ => trivial, ?_⟩
  intro current
  have hgot := hloop.holding.mono (List.subset_cons_self (⟨.runs (.get r none), .ok current⟩) h)
  refine Prog.Trail.ite (c := Run.cancelRequested current = true) (fun _ => ?_) fun hflag => ?_
  · refine settled_bind_trail hgot s.usedUnits fun h' hholds hsettled => ?_
    exact ⟨⟨rfl, rfl, _, _, hholds, Or.inr ⟨rfl, hsettled⟩⟩, fun _ => trivial⟩
  · refine Prog.trail_perform_bind.mpr ⟨trivial, fun _ => trivial, ?_⟩
    intro (now : ℚ)
    have hread := hgot.mono (List.subset_cons_self (⟨.clock, .ok now⟩) _)
    refine Prog.Trail.ite (fun _ => ?_) fun _ => ?_
    · exact settled_bind_trail hread s.usedUnits fun _ => fail_trail
    · obtain ⟨first, hfirst, hfirstRead, hdone, hle, hcount⟩ := hloop.start
      have hsub : h ⊆ (⟨.clock, .ok now⟩ :: ⟨.runs (.get r none), .ok current⟩ :: h : Past) :=
        fun _ he => List.mem_cons_of_mem _ (List.mem_cons_of_mem _ he)
      refine Prog.trail_perform_bind.mpr ⟨⟨rfl, ⟨_, _, hread⟩, ⟨first, hsub hfirstRead, hle⟩,
        Or.inr ⟨s, rfl, hsub hloop.read, rfl⟩⟩, fun _ => trivial, ?_⟩
      intro saved
      have hunasked : Unasked (⟨.runs (.saveCheckpoint r s.step [("step", .int s.step)]
            (some (inflightKey r s)) none s.usedUnits), .ok saved⟩ ::
          ⟨.clock, .ok now⟩ :: ⟨.runs (.get r none), .ok current⟩ :: h) :=
        Unasked.cons (Unasked.cons (Unasked.cons hloop.unasked
          ⟨fun hasks => hasks, by simpa [seesCancel, looksAt] using hflag⟩)
          ⟨fun hasks => hasks, rfl⟩) ⟨fun hasks => hasks, rfl⟩
      have hsaved := hread.mono (List.subset_cons_self (⟨.runs (.saveCheckpoint r s.step
        [("step", .int s.step)] (some (inflightKey r s)) none s.usedUnits), .ok saved⟩) _)
      have hsub' := List.Subset.trans hsub (List.subset_cons_self (⟨.runs (.saveCheckpoint r s.step
        [("step", .int s.step)] (some (inflightKey r s)) none s.usedUnits), .ok saved⟩) _)
      refine (callModel_trail (fun h' hadds timeout => ?_)).bind ?_ fun _ _ _ => trivial
      · refine ⟨_, _, hsaved.mono hadds.subset, hadds.same.2.2 hunasked, s,
          hadds.subset (hsub' hloop.read), rfl, ?_, hstep, first, ?_,
          hadds.subset (hsub' hfirstRead), hdone, hle, by omega⟩
        · rw [hadds.same.1]
          rfl
        · rw [hadds.same.2.1]
          exact hfirst
      · intro h' result hadds
        refine record_trail ⟨hsaved.mono hadds.subset, hadds.same.2.2 hunasked,
          hadds.subset (hsub' hloop.read), first, ?_, hadds.subset (hsub' hfirstRead), hdone, hle,
          hcount⟩ hagain
        rw [hadds.same.2.1]
        exact hfirst

/-- **The loop**, by induction on the model calls that are left. -/
theorem loop_trail (hloop : Looping h r claimed left s) :
    (worker.loop claimed r left s).Trail (Does r) (fun _ _ => True) h := by
  induction left generalizing h s with
  | zero => exact exhausted_trail hloop.holding
  | succ left ih =>
    unfold loop
    split
    · next hstep => exact iterate_trail hloop hstep fun _ _ hloop' => ih hloop'
    · exact exhausted_trail hloop.holding

theorem takeUp_trail {checkpoint : Checkpoint} (hholds : Holding h r run id)
    (hunasked : Unasked h) :
    (worker.takeUp id r checkpoint).Trail (Does r) (fun _ _ => True) h := by
  have hcommit : ∀ h', Holding h' r run id → Unasked h' →
      Prog.Trail (Does r) (fun _ _ => True) h'
        (do
          let _ ← commitCredits id checkpoint.usageUnits (commitKey r)
          askStore (.complete r checkpoint.usageUnits) : Program Run) := by
    intro h' hholds' hunasked'
    refine Prog.trail_perform_bind.mpr ⟨⟨_, hholds'⟩, fun _ => trivial, ?_⟩
    intro com
    have hadds : Adds h' (⟨.commit id checkpoint.usageUnits (commitKey r), .ok com⟩ :: h') :=
      (Adds.refl h').cons trivial
    exact ⟨⟨rfl, ⟨_, _, com, hholds'.mono hadds.subset, List.mem_cons_self⟩,
      hadds.same.2.2 hunasked'⟩, fun _ => trivial⟩
  refine Prog.Trail.bind (M := fun h' _ => Holding h' r run id ∧ Unasked h') ?_
    (fun h' _ ⟨hholds', hunasked'⟩ => hcommit h' hholds' hunasked') fun _ _ _ => trivial
  unfold putOut
  split
  · exact ⟨hholds, hunasked⟩
  · refine ⟨⟨rfl, _, _, hholds⟩, ?_⟩
    intro answer
    have hput : Holding (⟨.runs (.appendToken r (((checkpoint.state.lookup "last_output").getD
          (.str "")).pyStr worker.lib.repr)), answer⟩ :: h) r run id ∧
        Unasked (⟨.runs (.appendToken r (((checkpoint.state.lookup "last_output").getD
          (.str "")).pyStr worker.lib.repr)), answer⟩ :: h) :=
      ⟨hholds.mono (List.subset_cons_self _ h), hunasked.cons ⟨fun hasks => hasks, rfl⟩⟩
    cases answer with
    | ok token => exact hput
    | error e => exact hput

/-- **What `execute` has done before each of its operations.** -/
theorem execute_trail (worker : BoundedWorker) (r : String) :
    (worker.execute r).Trail (Does r) (fun _ _ => True) [] := by
  refine Prog.trail_perform_bind.mpr ⟨⟨rfl, rfl⟩, fun _ => trivial, ?_⟩
  intro run
  refine Prog.Trail.ite (fun _ => trivial) fun hstate => ?_
  have hactive : Run.state run = .queued ∨ Run.state run = .running := by
    cases hs : Run.state run <;> simp [hs] at hstate <;> simp
  cases hid : present (Run.reservationId run) with
  | none => exact ⟨⟨rfl, Or.inr ⟨run, rfl, hid⟩⟩, fun _ => trivial⟩
  | some id =>
    have hholds : Holding [⟨.runs (.claim r), .ok run⟩] r run id :=
      ⟨List.mem_cons_self, hactive, hid⟩
    refine Prog.trail_perform_bind.mpr ⟨⟨rfl, _, _, hholds⟩, fun _ => trivial, ?_⟩
    intro checkpoint
    have hread := hholds.mono (List.subset_cons_self (⟨.runs (.checkpoint r), .ok checkpoint⟩) _)
    have hunasked : Unasked [⟨.runs (.checkpoint r), .ok checkpoint⟩,
        ⟨.runs (.claim r), .ok run⟩] := by
      have hnil : Unasked [] := fun e he => absurd he List.not_mem_nil
      exact Unasked.cons (Unasked.cons hnil ⟨fun hasks => hasks, rfl⟩) ⟨fun hasks => hasks, rfl⟩
    cases hsaved : Option.filter (fun checkpoint => isTrue checkpoint "done") checkpoint with
    | some saved => exact takeUp_trail hread hunasked
    | none =>
      refine Prog.trail_perform_bind.mpr ⟨trivial, fun _ => trivial, ?_⟩
      intro now
      have hunfinished : (checkpoint.elim false fun c => isTrue c "done") = false := by
        cases hc : checkpoint with
        | none => rfl
        | some c => simpa [hc, Option.filter] using hsaved
      exact loop_trail ⟨hread.mono (List.subset_cons_self _ _),
        hunasked.cons ⟨fun hasks => hasks, rfl⟩, List.mem_cons_of_mem _ List.mem_cons_self,
        checkpoint, rfl, List.mem_cons_of_mem _ List.mem_cons_self, hunfinished, le_rfl, rfl⟩

end BoundedWorker

/-! ### The service -/

/-- The run an operation of the run store answered with. -/
def answeredRun : Answered → Option Run
  | ⟨.runs (.create ..), .ok (run, _)⟩ => some run
  | ⟨.runs (.get ..), .ok run⟩ | ⟨.runs (.attachReservation ..), .ok run⟩
  | ⟨.runs (.claim ..), .ok run⟩ | ⟨.runs (.transition ..), .ok run⟩
  | ⟨.runs (.markCancelRequested ..), .ok run⟩ | ⟨.runs (.approve ..), .ok run⟩
  | ⟨.runs (.fail ..), .ok run⟩ | ⟨.runs (.pauseQuota ..), .ok run⟩
  | ⟨.runs (.complete ..), .ok run⟩ => some run
  | _ => none

/-- A release or a commit went through. -/
def settles : Answered → Prop
  | ⟨.release _ _, .ok _⟩ | ⟨.commit _ _ _, .ok _⟩ => True
  | _ => False

/-- A process that fails a run has settled the reservation it knows of, or knows
of none. -/
def KnowsHold (h : Past) (r : String) : Prop :=
  (∀ e ∈ h, ¬ settles e) ∨ ∃ e ∈ h, ∃ run id, answeredRun e = some run ∧ run.runId = r ∧
    present run.reservationId = some id ∧ Settled h id

namespace RunService

/-- The run that a request's `create` answered with. -/
def From (request : RunCreate) (h : Past) (run : Run) : Prop :=
  ∃ e ∈ h, answeredRun e = some run ∧
    ((∃ r created, e = ⟨.runs (.create r request), .ok (run, created)⟩) ∨
      ∃ first payload, e = ⟨.runs (.transition (Run.runId first) .queued payload), .ok run⟩ ∧
        ∃ r created, (⟨.runs (.create r request), .ok (first, created)⟩ : Answered) ∈ h)

theorem From.mono {request : RunCreate} (hfrom : From request h run) (hsub : h ⊆ h') :
    From request h' run := by
  obtain ⟨e, he, hrun, hcreate | ⟨first, payload, htransition, r, created, hmem⟩⟩ := hfrom
  · exact ⟨e, hsub he, hrun, Or.inl hcreate⟩
  · exact ⟨e, hsub he, hrun, Or.inr ⟨first, payload, htransition, r, created, hsub hmem⟩⟩

/-- What `create_run` has done before an operation. -/
def Does (uuid : String) (request : RunCreate) (h : Past) : Op → Prop
  | .runs (.create r' request') => h = [] ∧ r' = "run-" ++ uuid ∧ request' = request
  | .runs (.transition r' state payload) => state = .queued ∧ payload.lookup "state" = none ∧
    ∃ run, From request h run ∧ r' = run.runId
  | .runs (.pauseQuota r' _ _) => ∃ run, From request h run ∧ r' = run.runId
  | .runs (.attachReservation r' id) => (∃ run, From request h run ∧ r' = run.runId) ∧
    ∃ t a u key res, (⟨.reserve t a r' u key, .ok res⟩ : Answered) ∈ h ∧
      id = CreditReservation.reservationId res
  | .runs (.fail r' _) => (∃ run, From request h run ∧
      (r' = run.runId ∨ ∃ id attached, (⟨.runs (.attachReservation run.runId id), .ok attached⟩ :
        Answered) ∈ h ∧ r' = Run.runId attached)) ∧ KnowsHold h r'
  | .reserve t _ r' _ key => t = request.tenantId ∧ key = reserveKey request ∧
    ∃ run, From request h run ∧ r' = run.runId
  | .runs (.get _ _) | .quota _ | .release _ _ | .outside _ => True
  | _ => False

/-- `cancel` releases what the run it cancelled has. -/
def Cancels (r t : String) (h : Past) : Op → Prop
  | .runs (.markCancelRequested r' t') => h = [] ∧ r' = r ∧ t' = t
  | .release id _ => ∃ run, h = [⟨.runs (.markCancelRequested r t), .ok run⟩] ∧
    Run.state run = .cancelled ∧ present (Run.reservationId run) = some id
  | _ => False

/-- `cancel` is not done before it has. -/
def Cancelled (r t : String) (h : Past) (_answer : Except Error Run) : Prop :=
  ∀ run, h = [⟨.runs (.markCancelRequested r t), .ok run⟩] → Run.state run = .cancelled →
    present (Run.reservationId run) = none

variable {service : RunService} {uuid : String} {request : RunCreate} {t : String}

theorem releaseQuota_trail {M : Past → Except Error Unit → Prop}
    (hM : ∀ h' answer, Adds h h' → (∀ e ∈ h', settles e → e ∈ h) → M h' answer) :
    (service.releaseQuota r).Trail (Does uuid request) M h := by
  unfold releaseQuota
  refine Prog.Trail.ite (fun _ => ⟨trivial, fun answer => ?_⟩) fun _ =>
    hM h _ (Adds.refl h) fun _ he _ => he
  refine hM _ answer ((Adds.refl h).cons trivial) ?_
  intro e he hsettles
  rcases List.mem_cons.mp he with rfl | he
  · exact hsettles.elim
  · exact he

/-- A run's reservation is released, where it has one. -/
theorem releaseHold_trail {P : Past → Op → Prop} {M : Past → Except Error Unit → Prop}
    (hnone : present run.reservationId = none → M h (.ok ()))
    (hsome : ∀ id, present run.reservationId = some id →
      P h (.release id (releaseKey run.runId)) ∧
        (∀ e, M (⟨.release id (releaseKey run.runId), .error e⟩ :: h) (.error e)) ∧
        ∀ res, M (⟨.release id (releaseKey run.runId), .ok res⟩ :: h) (.ok ())) :
    (releaseHold run).Trail P M h := by
  unfold releaseHold
  cases hhold : present run.reservationId with
  | none => exact hnone hhold
  | some id => exact Prog.trail_perform_bind.mpr (hsome id hhold)

/-- **The `except` branch** fails the run when it has released what it knows of. -/
theorem compensate_trail {e : Error} (hunsettled : ∀ e ∈ h, ¬ settles e)
    (hfrom : ∃ first, From request h first ∧ (run.runId = first.runId ∨
      ∃ id, (⟨.runs (.attachReservation first.runId id), .ok run⟩ : Answered) ∈ h))
    (hanswered : ∃ e ∈ h, answeredRun e = some run) :
    (service.compensate run e).Trail (Does uuid request) (fun _ _ => True) h := by
  obtain ⟨first, hfirst, hid⟩ := hfrom
  obtain ⟨e', he', hrun⟩ := hanswered
  have hfail : ∀ h', h ⊆ h' → KnowsHold h' run.runId →
      Prog.Trail (Does uuid request) (fun _ _ => True) h'
        (do
          let _ ← askStore (.fail run.runId "workflow dispatch failed")
          Prog.raise e : Program Run) := by
    intro h' hsub hknows
    refine Prog.trail_perform_bind.mpr ⟨⟨⟨first, hfirst.mono hsub, ?_⟩, hknows⟩, fun _ => trivial,
      fun _ => trivial⟩
    rcases hid with hid | ⟨id, hattach⟩
    · exact Or.inl hid
    · exact Or.inr ⟨id, run, hsub hattach, rfl⟩
  unfold compensate
  refine (releaseQuota_trail (M := fun h' _ => Adds h h' ∧ ∀ e ∈ h', settles e → e ∈ h)
    fun _ _ hadds hsame => ⟨hadds, hsame⟩).bind ?_ fun _ _ _ => trivial
  intro h' _ ⟨hadds, hsame⟩
  refine (releaseHold_trail (M := fun h'' answer => ∀ ok, answer = .ok ok →
    h ⊆ h'' ∧ KnowsHold h'' run.runId) ?_ ?_).bind ?_ fun _ _ _ => trivial
  · intro _ _ _
    exact ⟨hadds.subset, Or.inl fun e he hs => hunsettled e (hsame e he hs) hs⟩
  · intro id hhold
    refine ⟨trivial, fun e ok (hok : Except.error e = Except.ok ok) => (by cases hok), ?_⟩
    intro res ok _
    exact ⟨List.Subset.trans hadds.subset (List.subset_cons_self _ h'),
      Or.inr ⟨e', List.mem_cons_of_mem _ (hadds.subset he'), run, id, hrun, rfl, hhold,
        Or.inl ⟨_, res, List.mem_cons_self⟩⟩⟩
  · intro h'' _ hknows
    obtain ⟨hsub, hknows⟩ := hknows _ rfl
    exact hfail h'' hsub hknows

theorem hold_trail (hunsettled : ∀ e ∈ h, ¬ settles e) (hfrom : From request h run) :
    (service.hold request run).Trail (Does uuid request) (fun _ _ => True) h := by
  have hanswered : ∃ e ∈ h, answeredRun e = some run := by
    obtain ⟨e, he, hrun, -⟩ := hfrom
    exact ⟨e, he, hrun⟩
  refine Prog.trail_attempt_bind.mpr ⟨⟨rfl, rfl, run, hfrom, rfl⟩, ?_⟩
  intro reserved
  have hsub := List.subset_cons_self (⟨.reserve request.tenantId request.accountId run.runId
    request.reserveUnits (reserveKey request), reserved⟩ : Answered) h
  have hunsettled₁ : ∀ e ∈ (⟨.reserve request.tenantId request.accountId run.runId
      request.reserveUnits (reserveKey request), reserved⟩ :: h : Past), ¬ settles e := by
    intro e he
    rcases List.mem_cons.mp he with rfl | he
    · exact fun hs => hs
    · exact hunsettled e he
  obtain ⟨e₀, he₀, hrun⟩ := hanswered
  cases reserved with
  | error e =>
    exact compensate_trail hunsettled₁ ⟨run, hfrom.mono hsub, Or.inl rfl⟩ ⟨e₀, hsub he₀, hrun⟩
  | ok reservation =>
    refine Prog.trail_attempt_bind.mpr ⟨⟨⟨run, hfrom.mono hsub, rfl⟩, _, _, _, _, reservation,
      List.mem_cons_self, rfl⟩, ?_⟩
    intro attached
    have hsub' := List.subset_cons_self (⟨.runs (.attachReservation run.runId
      (CreditReservation.reservationId reservation)), attached⟩ : Answered)
      (⟨.reserve request.tenantId request.accountId run.runId request.reserveUnits
        (reserveKey request), .ok reservation⟩ :: h)
    have hunsettled₂ : ∀ e ∈ (⟨.runs (.attachReservation run.runId
        (CreditReservation.reservationId reservation)), attached⟩ ::
        ⟨.reserve request.tenantId request.accountId run.runId request.reserveUnits
          (reserveKey request), .ok reservation⟩ :: h : Past), ¬ settles e := by
      intro e he
      rcases List.mem_cons.mp he with rfl | he
      · exact fun hs => hs
      · exact hunsettled₁ e he
    cases attached with
    | error e =>
      exact compensate_trail hunsettled₂ ⟨run, (hfrom.mono hsub).mono hsub', Or.inl rfl⟩
        ⟨e₀, hsub' (hsub he₀), hrun⟩
    | ok attached =>
      refine Prog.Trail.ite (fun _ => ?_) fun _ => ⟨trivial, fun _ => trivial⟩
      refine Prog.trail_attempt_bind.mpr ⟨trivial, ?_⟩
      intro sent
      cases sent with
      | ok _ => exact ⟨trivial, fun _ => trivial⟩
      | error e =>
        refine compensate_trail ?_ ⟨run, ((hfrom.mono hsub).mono hsub').mono
          (List.subset_cons_self _ _), Or.inr ⟨_, List.mem_cons_of_mem _ List.mem_cons_self⟩⟩
          ⟨_, List.mem_cons_of_mem _ List.mem_cons_self, rfl⟩
        intro x hx
        rcases List.mem_cons.mp hx with rfl | hx
        · exact fun hs => hs
        · exact hunsettled₂ x hx

theorem admit_trail (hunsettled : ∀ e ∈ h, ¬ settles e) (hfrom : From request h run) :
    (service.admitRun request run).Trail (Does uuid request) (fun _ _ => True) h := by
  refine Prog.Trail.ite (fun _ => ?_) fun _ => hold_trail hunsettled hfrom
  refine Prog.trail_attempt_bind.mpr ⟨trivial, ?_⟩
  intro admitted
  have hfrom' := hfrom.mono (List.subset_cons_self (⟨.quota (.reserve request.tenantId run.runId
    request.reserveUnits), admitted⟩ : Answered) h)
  have hunsettled' : ∀ e ∈ (⟨.quota (.reserve request.tenantId run.runId request.reserveUnits),
      admitted⟩ :: h : Past), ¬ settles e := by
    intro e he
    rcases List.mem_cons.mp he with rfl | he
    · exact fun hs => hs
    · exact hunsettled e he
  cases admitted with
  | ok _ => exact hold_trail hunsettled' hfrom'
  | error e =>
    cases e with
    | quotaExceeded dimension limit => exact ⟨⟨run, hfrom', rfl⟩, fun _ => trivial⟩
    | _ => trivial

theorem resume_trail {created : Bool} (hunsettled : ∀ e ∈ h, ¬ settles e)
    (hcreated : (⟨.runs (.create r request), .ok (run, created)⟩ : Answered) ∈ h) :
    (service.resume request run).Trail (Does uuid request) (fun _ _ => True) h := by
  have hfrom : From request h run := ⟨_, hcreated, rfl, Or.inl ⟨r, created, rfl⟩⟩
  refine Prog.Trail.ite (fun _ => ?_) fun _ => ⟨trivial, fun _ => trivial⟩
  refine Prog.trail_attempt_bind.mpr ⟨trivial, ?_⟩
  intro admitted
  have hsub := List.subset_cons_self (⟨.quota (.reserve request.tenantId run.runId
    request.reserveUnits), admitted⟩ : Answered) h
  cases admitted with
  | error e =>
    cases e with
    | quotaExceeded dimension limit => exact ⟨trivial, fun _ => trivial⟩
    | _ => trivial
  | ok _ =>
    refine Prog.trail_perform_bind.mpr ⟨⟨rfl, rfl, run, hfrom.mono hsub, rfl⟩, fun _ => trivial, ?_⟩
    intro queued
    refine hold_trail ?_ ⟨_, List.mem_cons_self, rfl, Or.inr ⟨run, _, rfl, r, created,
      List.mem_cons_of_mem _ (hsub hcreated)⟩⟩
    intro e he
    simp only [List.mem_cons] at he
    rcases he with rfl | rfl | he
    · exact fun hs => hs
    · exact fun hs => hs
    · exact hunsettled e he

/-- **What `create_run` has done before each of its operations.** -/
theorem createRun_trail (service : RunService) (uuid : String) (request : RunCreate) :
    (service.createRun uuid request).Trail (Does uuid request) (fun _ _ => True) [] := by
  refine Prog.trail_perform_bind.mpr ⟨⟨rfl, rfl, rfl⟩, fun _ => trivial, ?_⟩
  rintro ⟨run, created⟩
  have hunsettled : ∀ e ∈ [(⟨.runs (.create ("run-" ++ uuid) request), .ok (run, created)⟩ :
      Answered)], ¬ settles e := by
    intro e he
    obtain rfl := List.mem_singleton.mp he
    exact fun hs => hs
  have hfrom : From request [⟨.runs (.create ("run-" ++ uuid) request), .ok (run, created)⟩] run :=
    ⟨_, List.mem_cons_self, rfl, Or.inl ⟨_, created, rfl⟩⟩
  refine Prog.Trail.ite (fun _ => admit_trail hunsettled hfrom) fun _ => ?_
  refine Prog.Trail.ite (fun _ => ⟨trivial, fun _ => trivial⟩) fun _ => ?_
  exact Prog.Trail.ite (fun _ => resume_trail hunsettled List.mem_cons_self) fun _ =>
    admit_trail hunsettled hfrom

theorem approve_trail (r t : String) : (approve r t).Trail
    (fun h op => op = .runs (.approve r t) ∧ h = []) (fun _ _ => True) [] :=
  ⟨⟨rfl, rfl⟩, fun _ => trivial⟩

/-- **What `cancel` has done before each of its operations, and when it is done.** -/
theorem cancel_trail (r t : String) : (cancel r t).Trail (Cancels r t) (Cancelled r t) [] := by
  refine Prog.trail_perform_bind.mpr ⟨⟨rfl, rfl, rfl⟩, ?_, ?_⟩
  · intro e run hpast
    cases hpast
  · intro run
    refine Prog.Trail.ite (fun hcancelled => ?_) fun hnot => ?_
    · refine (releaseHold_trail (M := fun h _ => Cancelled r t h (.ok run)) ?_ ?_).bind
        (fun _ _ h => h) fun _ _ h => h
      · intro hnone run' hpast _
        cases hpast
        exact hnone
      · intro id hsome
        refine ⟨⟨run, rfl, hcancelled, hsome⟩, ?_, ?_⟩
        · intro e run' hpast
          cases hpast
        · intro res run' hpast
          cases hpast
    · intro run' hpast hcancelled
      cases hpast
      exact absurd hcancelled hnot

end RunService

/-! ### All four -/

/-- What each kind of process has done before an operation. -/
def Task.Does : Task → Past → Op → Prop
  | .createRun uuid request => RunService.Does uuid request
  | .approve r t => fun h op => op = .runs (.approve r t) ∧ h = []
  | .cancel r t => RunService.Cancels r t
  | .execute r => BoundedWorker.Does r

/-- What a process has done when it is done. -/
def Task.Ends : Task → Past → Except Error Run → Prop
  | .cancel r t => RunService.Cancelled r t
  | _ => fun _ _ => True

/-- **Every program of the system has done it.** -/
theorem program_trail (policy : QuotaPolicy) (service : RunService) (worker : BoundedWorker)
    (task : Task) :
    ((runSystem policy service worker).program task).Trail task.Does task.Ends [] := by
  cases task with
  | createRun uuid request => exact RunService.createRun_trail service uuid request
  | approve r t => exact RunService.approve_trail r t
  | cancel r t => exact RunService.cancel_trail r t
  | execute r => exact BoundedWorker.execute_trail worker r

end AiSaas
