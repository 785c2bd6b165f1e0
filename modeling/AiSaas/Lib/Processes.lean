import AiSaas.Lib.Runs

/-!
# Processes over a shared state

A program is a tree of operations: it is done, or it asks for an operation and
goes on with what it answered.  Any number of programs run as processes over one
shared state.  An operation is one atomic step; between two of them any other
process may step, a new one may start, and one may be stopped for good.

The log keeps every operation with its answer, newest first.  What a program does
is said once, as a property of its past at each of its operations (`Trail`), and
then holds of every process in every pool that is reached.

## Main definitions

* `Prog`, `Prog.perform`, `Prog.attempt` — programs.
* `Entry`, `Prog.Trail` — an operation with its answer; what a program has done
  whenever it asks for an operation, and when it is done.
* `System`, `Pool`, `System.act` — processes and their steps.
* `Pool.ended` — how many processes have come to a result of a kind.
* `System.Traced` — every process is where its own past has led it.

## Main results

* `Prog.Trail.bind` — the trail of a sequence.
* `System.act_cases` — everything a step can do to a pool.
* `System.answered`, `System.log_split` — every answer was given in a pool of the run.
* `System.logged`, `System.rel_state` — what an operation in the log says, and what lasts.
* `System.turned` — which operation has brought a change about.
* `System.invariant`, `System.invariant_run` — the induction rule for pools.
* `System.facts`, `System.facts_run` — what answers say goes on holding, and later answers agree.
-/

namespace Processes

variable {Op : Type} {Ans : Op → Type} {ε α β : Type}

/-! ### Programs -/

/-- A program: its result, or an operation and what to do with its answer. -/
inductive Prog (Op : Type) (Ans : Op → Type) (ε α : Type) where
  | done (result : Except ε α)
  | call (op : Op) (next : Except ε (Ans op) → Prog Op Ans ε α)

namespace Prog

/-- One program after another; what the first raises ends both. -/
def bind : Prog Op Ans ε α → (α → Prog Op Ans ε β) → Prog Op Ans ε β
  | done (.ok a), f => f a
  | done (.error e), _ => done (.error e)
  | call op next, f => call op fun r => (next r).bind f

instance : Monad (Prog Op Ans ε) where
  pure a := done (.ok a)
  bind := bind

/-- Raise. -/
def raise (e : ε) : Prog Op Ans ε α := done (.error e)

/-- Ask for one operation and return its answer. -/
def perform (op : Op) : Prog Op Ans ε (Ans op) := call op done

/-- Run a program and return what it raises instead of raising it. -/
def attempt : Prog Op Ans ε α → Prog Op Ans ε (Except ε α)
  | done r => done (.ok r)
  | call op next => call op fun r => (next r).attempt

/-- A program that asks for nothing more. -/
def isDone : Prog Op Ans ε α → Bool
  | done _ => true
  | call _ _ => false

/-- What a program has come to, if it is done. -/
def result? : Prog Op Ans ε α → Option (Except ε α)
  | done r => some r
  | call _ _ => none

theorem isDone_iff {prog : Prog Op Ans ε α} : prog.isDone = true ↔ ∃ r, prog = done r := by
  cases prog with
  | done r => exact ⟨fun _ => ⟨r, rfl⟩, fun _ => rfl⟩
  | call op next =>
    constructor
    · intro h
      cases h
    · rintro ⟨r, h⟩
      cases h

end Prog

/-- An operation and its answer. -/
structure Entry (Op : Type) (Ans : Op → Type) (ε : Type) where
  op : Op
  answer : Except ε (Ans op)

namespace Prog

variable {P P' : List (Entry Op Ans ε) → Op → Prop}
  {Q Q' : List (Entry Op Ans ε) → Except ε α → Prop} {past : List (Entry Op Ans ε)}
  {prog : Prog Op Ans ε α}

/-- With a past, every operation the program asks for from here on meets `P`, and
every result meets `Q`, whatever is answered.  The past is newest first. -/
def Trail (P : List (Entry Op Ans ε) → Op → Prop)
    (Q : List (Entry Op Ans ε) → Except ε α → Prop) :
    List (Entry Op Ans ε) → Prog Op Ans ε α → Prop
  | past, done r => Q past r
  | past, call op next => P past op ∧ ∀ r, Trail P Q (⟨op, r⟩ :: past) (next r)

@[simp] theorem trail_done {r : Except ε α} : Trail P Q past (done r) ↔ Q past r := Iff.rfl

@[simp] theorem trail_pure {a : α} :
    Trail P Q past (pure a : Prog Op Ans ε α) ↔ Q past (.ok a) := Iff.rfl

@[simp] theorem trail_raise {e : ε} :
    Trail P Q past (raise e : Prog Op Ans ε α) ↔ Q past (.error e) := Iff.rfl

@[simp] theorem trail_call {op : Op} {next : Except ε (Ans op) → Prog Op Ans ε α} :
    Trail P Q past (call op next) ↔ P past op ∧ ∀ r, Trail P Q (⟨op, r⟩ :: past) (next r) := Iff.rfl

theorem Trail.mono (h : Trail P Q past prog) (hP : ∀ past op, P past op → P' past op)
    (hQ : ∀ past r, Q past r → Q' past r) : Trail P' Q' past prog := by
  induction prog generalizing past with
  | done r => exact hQ past r h
  | call op next ih => exact ⟨hP past op h.1, fun r => ih r (h.2 r)⟩

/-- **The trail of a sequence**: the second program starts from the past that the
first has left. -/
theorem Trail.bind {first : Prog Op Ans ε β} {next : β → Prog Op Ans ε α}
    {M : List (Entry Op Ans ε) → Except ε β → Prop} (h : Trail P M past first)
    (hok : ∀ past b, M past (.ok b) → Trail P Q past (next b))
    (herror : ∀ past e, M past (.error e) → Q past (.error e)) :
    Trail P Q past (first >>= next) := by
  change Trail P Q past (first.bind next)
  induction first generalizing past with
  | done r =>
    cases r with
    | ok b => exact hok past b h
    | error e => exact herror past e h
  | call op k ih => exact ⟨h.1, fun r => ih r (h.2 r)⟩

theorem Trail.attempt {M : List (Entry Op Ans ε) → Except ε (Except ε α) → Prop}
    (h : Trail P Q past prog) (hM : ∀ past r, Q past r → M past (.ok r)) :
    Trail P M past prog.attempt := by
  induction prog generalizing past with
  | done r => exact hM past r h
  | call op next ih => exact ⟨h.1, fun r => ih r (h.2 r)⟩

theorem Trail.ite {c : Prop} [Decidable c] {other : Prog Op Ans ε α}
    (hpos : c → Trail P Q past prog) (hneg : ¬ c → Trail P Q past other) :
    Trail P Q past (if c then prog else other) := by
  split
  · next h => exact hpos h
  · next h => exact hneg h

/-- A result that is there already, then the rest. -/
theorem trail_done_bind {x : Except ε β} {next : β → Prog Op Ans ε α}
    (herror : ∀ e, x = .error e → Q past (.error e))
    (hok : ∀ b, x = .ok b → Trail P Q past (next b)) :
    Trail P Q past ((done x : Prog Op Ans ε β) >>= next) := by
  cases x with
  | ok b => exact hok b rfl
  | error e => exact herror e rfl

/-- One operation, then the rest. -/
@[simp] theorem trail_perform_bind {op : Op} {next : Ans op → Prog Op Ans ε α} :
    Trail P Q past (perform op >>= next) ↔ P past op ∧
      (∀ e, Q (⟨op, .error e⟩ :: past) (.error e)) ∧
      ∀ a, Trail P Q (⟨op, .ok a⟩ :: past) (next a) := by
  constructor
  · intro h
    exact ⟨h.1, fun e => h.2 (.error e), fun a => h.2 (.ok a)⟩
  · rintro ⟨hop, herror, hok⟩
    refine ⟨hop, ?_⟩
    intro r
    cases r with
    | ok a => exact hok a
    | error e => exact herror e

/-- One operation, whose error is looked at, then the rest. -/
@[simp] theorem trail_attempt_bind {op : Op}
    {next : Except ε (Ans op) → Prog Op Ans ε α} :
    Trail P Q past (attempt (perform op) >>= next) ↔
      P past op ∧ ∀ r, Trail P Q (⟨op, r⟩ :: past) (next r) := Iff.rfl

/-- One operation, and its answer is the result. -/
@[simp] theorem trail_perform {op : Op} {Q : List (Entry Op Ans ε) → Except ε (Ans op) → Prop} :
    Trail P Q past (perform op) ↔ P past op ∧ ∀ r, Q (⟨op, r⟩ :: past) r := Iff.rfl

end Prog

/-! ### Pools of processes -/

/-- What the processes run on: the program of each task, and what an operation
does to the state, given what it draws from outside. -/
structure System (τ Op : Type) (Ans : Op → Type) (ε α σ κ : Type) where
  program : τ → Prog Op Ans ε α
  exec : κ → (op : Op) → σ → Except ε (Ans op) × σ

/-- A process: its task, what is left of its program, and whether it may step. -/
structure Proc (τ Op : Type) (Ans : Op → Type) (ε α : Type) where
  task : τ
  prog : Prog Op Ans ε α
  live : Bool

/-- The shared state, the processes, and who did what, newest first. -/
structure Pool (τ Op : Type) (Ans : Op → Type) (ε α σ : Type) where
  state : σ
  procs : List (Proc τ Op Ans ε α)
  log : List (ℕ × Entry Op Ans ε)

/-- What can happen to a pool. -/
inductive Action (τ κ : Type) where
  | start (task : τ)
  | step (i : ℕ) (drawn : κ)
  | stop (i : ℕ)

/-- The tasks that an action starts. -/
def Action.started {τ κ : Type} : Action τ κ → List τ
  | .start task => [task]
  | .step .. | .stop _ => []

variable {τ σ κ : Type} {sys : System τ Op Ans ε α σ κ} {pool pool' : Pool τ Op Ans ε α σ}

namespace Pool

/-- A pool before anything has started. -/
def init (s : σ) : Pool τ Op Ans ε α σ := ⟨s, [], []⟩

/-- What one process has done, newest first. -/
def past (pool : Pool τ Op Ans ε α σ) (i : ℕ) : List (Entry Op Ans ε) :=
  (pool.log.filter fun entry => decide (entry.1 = i)).map Prod.snd

theorem mem_past {i : ℕ} {e : Entry Op Ans ε} : e ∈ pool.past i ↔ (i, e) ∈ pool.log := by
  simp [past]

/-- The task of a process. -/
def task (pool : Pool τ Op Ans ε α σ) (i : ℕ) : Option τ := (pool.procs[i]?).map Proc.task

theorem task_of_found {i : ℕ} {p : Proc τ Op Ans ε α} (found : pool.procs[i]? = some p) :
    pool.task i = some p.task := by
  rw [task, found]
  rfl

/-- The operation a process asks for, if it may step. -/
def asked (pool : Pool τ Op Ans ε α σ) (i : ℕ) : Option Op :=
  match pool.procs[i]? with
  | some ⟨_, .call op _, true⟩ => some op
  | _ => none

theorem asked_of_found {i : ℕ} {task : τ} {op : Op} {next : Except ε (Ans op) → Prog Op Ans ε α}
    (found : pool.procs[i]? = some ⟨task, .call op next, true⟩) : pool.asked i = some op := by
  simp only [asked, found]

theorem asked_eq_some {i : ℕ} {op : Op} (h : pool.asked i = some op) :
    ∃ task next, pool.procs[i]? = some ⟨task, .call op next, true⟩ := by
  unfold asked at h
  split at h
  · next task op' next found =>
    obtain rfl := Option.some.inj h
    exact ⟨task, next, found⟩
  · cases h

/-- Every process has come to its end. -/
def Returned (pool : Pool τ Op Ans ε α σ) : Prop := ∀ p ∈ pool.procs, p.prog.isDone = true

instance (pool : Pool τ Op Ans ε α σ) : Decidable pool.Returned :=
  inferInstanceAs (Decidable (∀ p ∈ pool.procs, p.prog.isDone = true))

/-- How many processes have come to a result that meets a condition. -/
def ended (pool : Pool τ Op Ans ε α σ) (cond : τ → Except ε α → Bool) : ℕ :=
  pool.procs.countP fun p => p.prog.result?.any (cond p.task)

/-- A condition on every operation of a run, in the pool it is asked for in. -/
def Meets (cond : Pool τ Op Ans ε α σ → ℕ → Op → Bool) (pool : Pool τ Op Ans ε α σ) :
    Action τ κ → Prop
  | .step i _ => (pool.asked i).all (cond pool i) = true
  | _ => True

instance (cond : Pool τ Op Ans ε α σ → ℕ → Op → Bool) (pool : Pool τ Op Ans ε α σ)
    (a : Action τ κ) : Decidable (pool.Meets cond a) :=
  match a with
  | .start _ => isTrue trivial
  | .step i _ => inferInstanceAs (Decidable ((pool.asked i).all (cond pool i) = true))
  | .stop _ => isTrue trivial

theorem Meets.cond {cond : Pool τ Op Ans ε α σ → ℕ → Op → Bool} {i : ℕ} {drawn : κ} {task : τ}
    {op : Op} {next : Except ε (Ans op) → Prog Op Ans ε α}
    (h : pool.Meets cond (.step i drawn : Action τ κ))
    (found : pool.procs[i]? = some ⟨task, .call op next, true⟩) : cond pool i op = true := by
  have hall : (pool.asked i).all (cond pool i) = true := h
  rwa [asked_of_found found] at hall

end Pool

namespace System

/-- The pool after the operation a process asks for. -/
def after (sys : System τ Op Ans ε α σ κ) (pool : Pool τ Op Ans ε α σ) (i : ℕ) (drawn : κ)
    (task : τ) (op : Op) (next : Except ε (Ans op) → Prog Op Ans ε α) : Pool τ Op Ans ε α σ where
  state := (sys.exec drawn op pool.state).2
  procs := pool.procs.set i ⟨task, next (sys.exec drawn op pool.state).1, true⟩
  log := (i, ⟨op, (sys.exec drawn op pool.state).1⟩) :: pool.log

/-- The pool after an action.  A process that is done or stopped does not step. -/
def act (sys : System τ Op Ans ε α σ κ) (pool : Pool τ Op Ans ε α σ) :
    Action τ κ → Pool τ Op Ans ε α σ
  | .start task => { pool with procs := pool.procs ++ [⟨task, sys.program task, true⟩] }
  | .stop i => { pool with procs := pool.procs.modify i fun p => { p with live := false } }
  | .step i drawn =>
    match pool.procs[i]? with
    | some ⟨task, .call op next, true⟩ => sys.after pool i drawn task op next
    | _ => pool

/-- A step of a process that asks for nothing changes nothing. -/
theorem act_of_not_asked {i : ℕ} (h : pool.asked i = none) (drawn : κ) :
    sys.act pool (.step i drawn) = pool := by
  rw [act]
  split
  · next found => rw [Pool.asked_of_found found] at h; cases h
  · rfl

/-- A step of a process that asks for an operation. -/
theorem act_of_found {i : ℕ} {task : τ} {op : Op} {next : Except ε (Ans op) → Prog Op Ans ε α}
    (found : pool.procs[i]? = some ⟨task, .call op next, true⟩) (drawn : κ) :
    sys.act pool (.step i drawn) = sys.after pool i drawn task op next := by
  rw [act, found]

/-- The tasks of a pool after an action are those before it and those it starts. -/
theorem tasks_act (sys : System τ Op Ans ε α σ κ) (pool : Pool τ Op Ans ε α σ) (a : Action τ κ) :
    (sys.act pool a).procs.map Proc.task = pool.procs.map Proc.task ++ a.started := by
  cases a with
  | start => simp [act, Action.started]
  | stop i =>
    simp only [act, Action.started, List.append_nil]
    refine List.ext_getElem? fun j => ?_
    rw [List.getElem?_map, List.getElem?_map, List.getElem?_modify]
    cases pool.procs[j]? with
    | none => rfl
    | some p => by_cases hij : i = j <;> simp [hij]
  | step i drawn =>
    simp only [act, Action.started, List.append_nil]
    split
    · next task op rest found =>
      obtain ⟨hi, hget⟩ := List.getElem?_eq_some_iff.mp found
      have hlength : i < (pool.procs.map Proc.task).length := by rwa [List.length_map]
      have htask : (pool.procs.map Proc.task)[i] = task :=
        (List.getElem_map ..).trans (congrArg Proc.task hget)
      simp only [after, List.map_set]
      rw [← htask, List.set_getElem_self]
    · rfl

/-- **The tasks of a run** are those that have been started, in their order. -/
theorem task_final (sys : System τ Op Ans ε α σ κ) (s : σ) (actions : List (Action τ κ)) (i : ℕ) :
    (Runs.final sys.act (Pool.init s) actions).task i
      = (actions.flatMap Action.started)[i]? := by
  have htasks : ∀ pool : Pool τ Op Ans ε α σ, (Runs.final sys.act pool actions).procs.map Proc.task
      = pool.procs.map Proc.task ++ actions.flatMap Action.started := by
    induction actions with
    | nil => simp
    | cons a actions ih =>
      intro pool
      rw [Runs.final_cons, ih, tasks_act, List.append_assoc, List.flatMap_cons]
  rw [Pool.task, ← List.getElem?_map, htasks]
  rfl

/-- What an action does. -/
inductive Acts (sys : System τ Op Ans ε α σ κ) (pool : Pool τ Op Ans ε α σ) :
    Action τ κ → Pool τ Op Ans ε α σ → Prop
  | start (task : τ) : Acts sys pool (.start task)
      { pool with procs := pool.procs ++ [⟨task, sys.program task, true⟩] }
  | stop (i : ℕ) : Acts sys pool (.stop i)
      { pool with procs := pool.procs.modify i fun p => { p with live := false } }
  | idle (a : Action τ κ) : Acts sys pool a pool
  | step {i : ℕ} (drawn : κ) {task : τ} {op : Op} {next : Except ε (Ans op) → Prog Op Ans ε α}
      (found : pool.procs[i]? = some ⟨task, .call op next, true⟩) :
      Acts sys pool (.step i drawn) (sys.after pool i drawn task op next)

/-- **What an action does to a pool**: a process starts, is stopped, or gets the
answer to the operation it asked for. -/
theorem act_cases (sys : System τ Op Ans ε α σ κ) (pool : Pool τ Op Ans ε α σ)
    (a : Action τ κ) : Acts sys pool a (sys.act pool a) := by
  cases a with
  | start task => exact .start task
  | stop i => exact .stop i
  | step i drawn =>
    cases hfound : pool.procs[i]? with
    | none =>
      have hidle : sys.act pool (.step i drawn) = pool := by simp only [act, hfound]
      rw [hidle]
      exact .idle _
    | some p =>
      obtain ⟨task, prog, live⟩ := p
      rcases prog with r | ⟨op, next⟩
      · have hidle : sys.act pool (.step i drawn) = pool := by simp only [act, hfound]
        rw [hidle]
        exact .idle _
      · cases live with
        | false =>
          have hidle : sys.act pool (.step i drawn) = pool := by simp only [act, hfound]
          rw [hidle]
          exact .idle _
        | true =>
          have hstep : sys.act pool (.step i drawn) = sys.after pool i drawn task op next := by
            simp only [act, hfound]
          rw [hstep]
          exact .step drawn hfound

/-- A process keeps its task. -/
theorem Acts.task_eq {a : Action τ κ} (h : Acts sys pool a pool') {i : ℕ}
    (hi : i < pool.procs.length) : pool'.task i = pool.task i := by
  unfold Pool.task
  cases h with
  | start => rw [List.getElem?_append_left hi]
  | stop j =>
    rw [List.getElem?_modify]
    cases pool.procs[i]? with
    | none => rfl
    | some p => by_cases hij : j = i <;> simp [hij]
  | idle => rfl
  | @step j drawn task op next found =>
    change ((pool.procs.set j _)[i]?).map Proc.task = _
    by_cases hij : j = i
    · subst hij
      rw [List.getElem?_set_self hi, found]
      rfl
    · rw [List.getElem?_set_ne hij]

/-- A process that is done stays in the pool. -/
theorem Acts.done_mem {a : Action τ κ} (h : Acts sys pool a pool') {p : Proc τ Op Ans ε α}
    {r : Except ε α} (hp : p ∈ pool.procs) (hdone : p.prog = .done r) :
    ∃ p' ∈ pool'.procs, p'.task = p.task ∧ p'.prog = p.prog := by
  obtain ⟨j, hj⟩ := List.mem_iff_getElem?.mp hp
  cases h with
  | start => exact ⟨p, List.mem_append_left _ hp, rfl, rfl⟩
  | stop i =>
    by_cases hij : i = j
    · refine ⟨{ p with live := false }, List.mem_iff_getElem?.mpr ⟨j, ?_⟩, rfl, rfl⟩
      simp [hij, hj]
    · refine ⟨p, List.mem_iff_getElem?.mpr ⟨j, ?_⟩, rfl, rfl⟩
      simp [hij, hj]
  | idle => exact ⟨p, hp, rfl, rfl⟩
  | @step i drawn task op next found =>
    refine ⟨p, List.mem_iff_getElem?.mpr ⟨j, ?_⟩, rfl, rfl⟩
    change (pool.procs.set i _)[j]? = some p
    rw [List.getElem?_set_ne, hj]
    rintro rfl
    rw [hj] at found
    obtain rfl := Option.some.inj found
    cases hdone

/-- **Answers were true**: every answer in the log was given in a pool that the run
has gone through. -/
theorem answered (s : σ) (actions : List (Action τ κ)) :
    ∀ e ∈ (Runs.final sys.act (Pool.init s) actions).log, ∃ before drawn, before <+: actions ∧
      e.2.answer = (sys.exec drawn e.2.op (Runs.final sys.act (Pool.init s) before).state).1 := by
  induction actions using List.reverseRecOn with
  | nil => exact fun e he => absurd he List.not_mem_nil
  | append_singleton actions a ih =>
    intro e he
    have hkeep : e ∈ (Runs.final sys.act (Pool.init s) actions).log → ∃ before drawn,
        before <+: actions ++ [a] ∧ e.2.answer =
          (sys.exec drawn e.2.op (Runs.final sys.act (Pool.init s) before).state).1 := by
      intro he
      obtain ⟨before, drawn, hbefore, hanswer⟩ := ih e he
      exact ⟨before, drawn, hbefore.trans (List.prefix_append _ _), hanswer⟩
    rw [Runs.final_append, Runs.final_cons, Runs.final_nil] at he
    have hacts := act_cases sys (Runs.final sys.act (Pool.init s) actions) a
    generalize sys.act (Runs.final sys.act (Pool.init s) actions) a = pool' at hacts he
    cases hacts with
    | start | stop | idle => exact hkeep he
    | @step i drawn task op next found =>
      rcases List.mem_cons.mp he with rfl | he
      · exact ⟨actions, drawn, List.prefix_append _ _, rfl⟩
      · exact hkeep he

/-- Of two entries of a list one stands before the other, unless they are one. -/
theorem mem_mem_split {α : Type*} {l : List α} {a b : α} (ha : a ∈ l) (hb : b ∈ l) :
    a = b ∨ (∃ newer older, l = newer ++ a :: older ∧ b ∈ older) ∨
      ∃ newer older, l = newer ++ b :: older ∧ a ∈ older := by
  obtain ⟨s, t, rfl⟩ := List.append_of_mem ha
  rcases List.mem_append.mp hb with hb | hb
  · obtain ⟨s₁, s₂, rfl⟩ := List.append_of_mem hb
    exact Or.inr (Or.inr ⟨s₁, s₂ ++ a :: t, by simp, by simp⟩)
  · rcases List.mem_cons.mp hb with rfl | hb
    · exact Or.inl rfl
    · exact Or.inr (Or.inl ⟨s, t, rfl, hb⟩)

/-- **When an operation was asked for.**  What is below an operation in the log is the log of
a pool of the run, in which the process asked for it and got its answer. -/
theorem log_split {s : σ} {actions : List (Action τ κ)} {newer older : List (ℕ × Entry Op Ans ε)}
    {i : ℕ} {e : Entry Op Ans ε}
    (h : (Runs.final sys.act (Pool.init s) actions).log = newer ++ (i, e) :: older) :
    ∃ before drawn, before ++ [.step i drawn] <+: actions ∧
      (Runs.final sys.act (Pool.init s) before).log = older ∧
      (Runs.final sys.act (Pool.init s) before).asked i = some e.op ∧
      e.answer = (sys.exec drawn e.op (Runs.final sys.act (Pool.init s) before).state).1 := by
  induction actions using List.reverseRecOn generalizing newer with
  | nil => simp [Pool.init] at h
  | append_singleton actions a ih =>
    have hkeep : ∀ {newer}, (Runs.final sys.act (Pool.init s) actions).log = newer ++ (i, e) :: older →
        ∃ before drawn, before ++ [.step i drawn] <+: actions ++ [a] ∧
          (Runs.final sys.act (Pool.init s) before).log = older ∧
          (Runs.final sys.act (Pool.init s) before).asked i = some e.op ∧
          e.answer = (sys.exec drawn e.op (Runs.final sys.act (Pool.init s) before).state).1 := by
      intro newer hlog
      obtain ⟨before, drawn, hbefore, hrest⟩ := ih hlog
      exact ⟨before, drawn, hbefore.trans (List.prefix_append _ _), hrest⟩
    rw [Runs.final_append, Runs.final_cons, Runs.final_nil] at h
    have hacts := act_cases sys (Runs.final sys.act (Pool.init s) actions) a
    generalize sys.act (Runs.final sys.act (Pool.init s) actions) a = pool' at hacts h
    cases hacts with
    | start | stop | idle => exact hkeep h
    | @step j drawn task op next found =>
      cases newer with
      | nil =>
        -- the newest operation was asked for in the pool before
        obtain ⟨hnew, hlog⟩ := List.cons.inj h
        obtain ⟨rfl, rfl⟩ := Prod.mk.inj hnew
        exact ⟨actions, drawn, List.prefix_rfl, hlog, Pool.asked_of_found found, rfl⟩
      | cons entry newer => exact hkeep (List.cons.inj h).2

/-- The state after an operation that is asked for. -/
theorem state_act {i : ℕ} {op : Op} (h : pool.asked i = some op) (drawn : κ) :
    (sys.act pool (.step i drawn)).state = (sys.exec drawn op pool.state).2 := by
  obtain ⟨task, next, found⟩ := Pool.asked_eq_some h
  rw [act_of_found found]
  rfl

/-- The log after an operation that is asked for. -/
theorem log_act {i : ℕ} {op : Op} (h : pool.asked i = some op) (drawn : κ) :
    (sys.act pool (.step i drawn)).log = (i, ⟨op, (sys.exec drawn op pool.state).1⟩) :: pool.log := by
  obtain ⟨task, next, found⟩ := Pool.asked_eq_some h
  rw [act_of_found found]
  rfl

/-- **The log only grows.** -/
theorem log_suffix (sys : System τ Op Ans ε α σ κ) (pool : Pool τ Op Ans ε α σ)
    (actions : List (Action τ κ)) : pool.log <:+ (Runs.final sys.act pool actions).log := by
  refine Runs.rel_final (I := fun _ => True)
    (R := fun pool pool' : Pool τ Op Ans ε α σ => pool.log <:+ pool'.log) (fun _ => List.suffix_rfl) (fun h h' => h.trans h') (fun _ _ _ => trivial) ?_ trivial actions
  intro pool a _
  have hacts := act_cases sys pool a
  generalize sys.act pool a = pool' at hacts
  cases hacts with
  | start | stop | idle => exact List.suffix_rfl
  | step => exact List.suffix_cons _ _

/-- The past of a process only grows. -/
theorem past_subset {before actions : List (Action τ κ)} (h : before <+: actions) (s : σ) (i : ℕ) :
    (Runs.final sys.act (Pool.init s) before).past i
      ⊆ (Runs.final sys.act (Pool.init s) actions).past i := by
  obtain ⟨rest, rfl⟩ := h
  intro e he
  rw [Runs.final_append]
  exact Pool.mem_past.mpr ((log_suffix sys _ rest).subset (Pool.mem_past.mp he))

/-- **What a later process does comes later**: an operation in the log of a process that had
not started in a pool of the run was asked for behind that pool. -/
theorem asked_later {before actions : List (Action τ κ)} (hbefore : before <+: actions) {s : σ} {i : ℕ}
    {e : Entry Op Ans ε} (h : (i, e) ∈ (Runs.final sys.act (Pool.init s) actions).log)
    (hnew : (i, e) ∉ (Runs.final sys.act (Pool.init s) before).log) :
    ∃ moment drawn, before <+: moment ∧ moment <+: actions ∧
      (Runs.final sys.act (Pool.init s) moment).asked i = some e.op ∧
      e.answer = (sys.exec drawn e.op (Runs.final sys.act (Pool.init s) moment).state).1 := by
  obtain ⟨newer, older, hlog⟩ := List.append_of_mem h
  obtain ⟨moment, drawn, hmoment, -, hasked, hanswer⟩ := log_split hlog
  refine ⟨moment, drawn, ?_, (List.prefix_append _ _).trans hmoment, hasked, hanswer⟩
  rcases List.prefix_or_prefix_of_prefix hmoment hbefore with hearly | hlate
  · -- the operation would be in the log already
    refine absurd ?_ hnew
    obtain ⟨rest, rfl⟩ := hearly
    rw [Runs.final_append, Runs.final_append, Runs.final_cons, Runs.final_nil]
    refine (log_suffix sys _ rest).subset ?_
    rw [log_act hasked drawn, ← hanswer]
    exact List.mem_cons_self
  · rcases List.prefix_concat_iff.mp hlate with rfl | hprefix
    · refine absurd ?_ hnew
      rw [Runs.final_append, Runs.final_cons, Runs.final_nil, log_act hasked drawn, ← hanswer]
      exact List.mem_cons_self
    · exact hprefix

/-- A process keeps its task. -/
theorem task_of_prefix {before actions : List (Action τ κ)} (h : before <+: actions) {s : σ} {i : ℕ}
    {task : τ} (htask : (Runs.final sys.act (Pool.init s) before).task i = some task) :
    (Runs.final sys.act (Pool.init s) actions).task i = some task := by
  obtain ⟨rest, rfl⟩ := h
  rw [task_final] at htask ⊢
  rw [List.flatMap_append, List.getElem?_append_left (List.getElem?_eq_some_iff.mp htask).1]
  exact htask

/-! ### What the processes have come to -/

variable {cond : τ → Except ε α → Bool}

/-- A process that starts counts if its program has come to its result at once. -/
theorem ended_start {task : τ} (h : (sys.program task).result?.any (cond task) = false) :
    Pool.ended { pool with procs := pool.procs ++ [⟨task, sys.program task, true⟩] } cond
      = pool.ended cond := by
  simp [Pool.ended, List.countP_append, h]

/-- A process that is stopped has come to what it had come to. -/
theorem ended_stop {i : ℕ} :
    Pool.ended { pool with procs := pool.procs.modify i fun p => { p with live := false } } cond
      = pool.ended cond := by
  have hmap : ∀ l : List (Proc τ Op Ans ε α), (l.modify i fun p => { p with live := false }).map
      (fun p => p.prog.result?.any (cond p.task)) = l.map fun p => p.prog.result?.any (cond p.task) := by
    intro l
    apply List.ext_getElem?
    intro j
    rw [List.getElem?_map, List.getElem?_map, List.getElem?_modify]
    cases l[j]? with
    | none => rfl
    | some p => by_cases hij : i = j <;> simp [hij]
  have hcount : ∀ l : List (Proc τ Op Ans ε α),
      l.countP (fun p => p.prog.result?.any (cond p.task))
        = (l.map fun p => p.prog.result?.any (cond p.task)).countP id := by
    intro l
    rw [List.countP_map]
    rfl
  unfold Pool.ended
  rw [hcount, hcount, hmap]

/-- A process that steps comes to a result, or to nothing yet. -/
theorem ended_after {i : ℕ} {drawn : κ} {task : τ} {op : Op}
    {next : Except ε (Ans op) → Prog Op Ans ε α}
    (found : pool.procs[i]? = some ⟨task, .call op next, true⟩) :
    (sys.after pool i drawn task op next).ended cond = pool.ended cond +
      if (next (sys.exec drawn op pool.state).1).result?.any (cond task) then 1 else 0 := by
  obtain ⟨hi, hget⟩ := List.getElem?_eq_some_iff.mp found
  change (pool.procs.set i _).countP _ = _
  rw [List.countP_set hi, hget]
  rfl

/-! ### Where the processes are -/

/-- Every process is where its own past has led it. -/
def Traced (P : τ → List (Entry Op Ans ε) → Op → Prop)
    (Q : τ → List (Entry Op Ans ε) → Except ε α → Prop) (pool : Pool τ Op Ans ε α σ) : Prop :=
  (∀ (i : ℕ) (p : Proc τ Op Ans ε α), pool.procs[i]? = some p → p.prog.Trail (P p.task) (Q p.task) (pool.past i)) ∧
    ∀ e ∈ pool.log, e.1 < pool.procs.length

variable {P : τ → List (Entry Op Ans ε) → Op → Prop}
  {Q : τ → List (Entry Op Ans ε) → Except ε α → Prop}

theorem traced_init (s : σ) : Traced P Q (Pool.init s : Pool τ Op Ans ε α σ) :=
  ⟨fun i p h => by simp [Pool.init] at h, fun e he => absurd he List.not_mem_nil⟩

theorem past_after {i j : ℕ} {drawn : κ} {task : τ} {op : Op}
    {next : Except ε (Ans op) → Prog Op Ans ε α} :
    (sys.after pool i drawn task op next).past j
      = if i = j then ⟨op, (sys.exec drawn op pool.state).1⟩ :: pool.past j else pool.past j := by
  unfold after Pool.past
  by_cases hij : i = j <;> simp [hij]

/-- **A step takes a process along its trail** and leaves the others where they are. -/
theorem traced_act (hprogram : ∀ task, (sys.program task).Trail (P task) (Q task) [])
    (h : Traced P Q pool) (a : Action τ κ) : Traced P Q (sys.act pool a) := by
  obtain ⟨htrails, hlog⟩ := h
  have hacts := act_cases sys pool a
  generalize sys.act pool a = pool' at hacts
  cases hacts with
  | start task =>
    refine ⟨?_, fun e he => ?_⟩
    · intro i p hp
      rcases Nat.lt_or_ge i pool.procs.length with hi | hi
      · rw [List.getElem?_append_left hi] at hp
        exact htrails i p hp
      · -- a new process has no past
        have hnone : pool.past i = [] := by
          apply List.eq_nil_iff_forall_not_mem.mpr
          intro e he
          exact absurd (hlog _ (Pool.mem_past.mp he)) (Nat.not_lt.mpr hi)
        rw [List.getElem?_append_right hi] at hp
        have hi0 : i - pool.procs.length = 0 := by
          rw [List.getElem?_eq_some_iff] at hp
          obtain ⟨hlt, -⟩ := hp
          simpa using hlt
        rw [hi0] at hp
        obtain rfl := Option.some.inj hp
        change (sys.program task).Trail _ _ (pool.past i)
        rw [hnone]
        exact hprogram task
    · have := hlog e he
      simp only [List.length_append, List.length_singleton]
      omega
  | stop i =>
    refine ⟨?_, fun e he => by simpa using hlog e he⟩
    intro j p hp
    rw [List.getElem?_modify, Option.map_eq_map, Option.map_eq_some_iff] at hp
    obtain ⟨p', hp', rfl⟩ := hp
    have htrail := htrails j p' hp'
    by_cases hij : i = j
    · rw [if_pos hij]
      exact htrail
    · rw [if_neg hij]
      exact htrail
  | idle => exact ⟨htrails, hlog⟩
  | @step i drawn task op next found =>
    have hi : i < pool.procs.length := (List.getElem?_eq_some_iff.mp found).1
    refine ⟨?_, ?_⟩
    · intro j p hp
      rw [past_after]
      by_cases hij : i = j
      · subst hij
        have hp' : some (⟨task, next (sys.exec drawn op pool.state).1, true⟩ : Proc τ Op Ans ε α)
            = some p := by
          rw [← hp]
          exact (List.getElem?_set_self hi).symm
        obtain rfl := Option.some.inj hp'
        rw [if_pos rfl]
        exact (htrails i _ found).2 _
      · have hp' : pool.procs[j]? = some p := by
          rw [← hp]
          exact (List.getElem?_set_ne hij).symm
        rw [if_neg hij]
        exact htrails j p hp'
    · intro e he
      change e ∈ (i, _) :: pool.log at he
      change e.1 < (pool.procs.set i _).length
      rw [List.length_set]
      rcases List.mem_cons.mp he with rfl | he
      · exact hi
      · exact hlog e he

/-- What a process asks for is on its trail. -/
theorem Traced.asked (h : Traced P Q pool) {i : ℕ} {op : Op} (hasked : pool.asked i = some op) :
    ∃ task, pool.task i = some task ∧ P task (pool.past i) op := by
  obtain ⟨task, next, found⟩ := Pool.asked_eq_some hasked
  exact ⟨task, Pool.task_of_found found, (h.1 i _ found).1⟩

/-- In every pool of a run every process is where its own past has led it. -/
theorem traced_run (hprogram : ∀ task, (sys.program task).Trail (P task) (Q task) []) (s : σ)
    (actions : List (Action τ κ)) : Traced P Q (Runs.final sys.act (Pool.init s) actions) :=
  Runs.invariant (traced_init s) (fun _ a h => traced_act hprogram h a) actions

/-- **What an operation in the log says**: a process on its trail asked for it in a pool of
the run, whose answer and whose state it got. -/
theorem logged (hprogram : ∀ task, (sys.program task).Trail (P task) (Q task) []) {s : σ}
    {actions : List (Action τ κ)} {i : ℕ} {e : Entry Op Ans ε}
    (h : (i, e) ∈ (Runs.final sys.act (Pool.init s) actions).log) :
    ∃ before drawn task, before ++ [.step i drawn] <+: actions ∧
      (Runs.final sys.act (Pool.init s) actions).task i = some task ∧
      P task ((Runs.final sys.act (Pool.init s) before).past i) e.op ∧
      e.answer = (sys.exec drawn e.op (Runs.final sys.act (Pool.init s) before).state).1 ∧
      (Runs.final sys.act (Pool.init s) (before ++ [.step i drawn])).state
        = (sys.exec drawn e.op (Runs.final sys.act (Pool.init s) before).state).2 := by
  obtain ⟨newer, older, hlog⟩ := List.append_of_mem h
  obtain ⟨before, drawn, hbefore, -, hasked, hanswer⟩ := log_split hlog
  obtain ⟨task, htask, hP⟩ := (traced_run hprogram s before).asked hasked
  have hprefix := (List.prefix_append before [.step i drawn]).trans hbefore
  refine ⟨before, drawn, task, hbefore, task_of_prefix hprefix htask, hP, hanswer, ?_⟩
  rw [Runs.final_append, Runs.final_cons, Runs.final_nil]
  exact state_act hasked drawn

/-- **What lasts**: a relation between the states before and after every operation that a
process on its trail asks for relates the state of every pool of a run to every later one. -/
theorem rel_state {R : σ → σ → Prop}
    (hprogram : ∀ task, (sys.program task).Trail (P task) (Q task) []) (hrefl : ∀ s, R s s)
    (htrans : ∀ {s t u}, R s t → R t u → R s u)
    (hstep : ∀ task past op drawn s, P task past op → R s (sys.exec drawn op s).2) {s : σ}
    {before actions : List (Action τ κ)} (h : before <+: actions) :
    R (Runs.final sys.act (Pool.init s) before).state
      (Runs.final sys.act (Pool.init s) actions).state := by
  obtain ⟨rest, rfl⟩ := h
  rw [Runs.final_append]
  refine Runs.rel_final (I := Traced P Q)
    (R := fun pool pool' : Pool τ Op Ans ε α σ => R pool.state pool'.state) (fun _ => hrefl _) htrans (fun _ a h => traced_act hprogram h a) ?_ (traced_run hprogram s before) rest
  intro pool a htraced
  have hacts := act_cases sys pool a
  generalize sys.act pool a = pool' at hacts
  cases hacts with
  | start | stop | idle => exact hrefl _
  | step drawn found => exact hstep _ _ _ drawn _ (htraced.1 _ _ found).1

/-- **What brings a change**: what holds of the state of a pool held at first, or an operation
that a process on its trail asked for has brought it about. -/
theorem turned {φ : σ → Prop} (hprogram : ∀ task, (sys.program task).Trail (P task) (Q task) [])
    {s : σ} {actions : List (Action τ κ)}
    (h : φ (Runs.final sys.act (Pool.init s) actions).state) :
    φ s ∨ ∃ before i drawn task op, before ++ [.step i drawn] <+: actions ∧
      (Runs.final sys.act (Pool.init s) before).task i = some task ∧
      P task ((Runs.final sys.act (Pool.init s) before).past i) op ∧
      ¬ φ (Runs.final sys.act (Pool.init s) before).state ∧
      φ (sys.exec drawn op (Runs.final sys.act (Pool.init s) before).state).2 := by
  induction actions using List.reverseRecOn with
  | nil => exact Or.inl h
  | append_singleton actions a ih =>
    by_cases hbefore : φ (Runs.final sys.act (Pool.init s) actions).state
    · rcases ih hbefore with h0 | ⟨before, i, drawn, task, op, hprefix, hrest⟩
      · exact Or.inl h0
      · exact Or.inr ⟨before, i, drawn, task, op, hprefix.trans (List.prefix_append _ _), hrest⟩
    · -- the last action has brought it about
      rw [Runs.final_append, Runs.final_cons, Runs.final_nil] at h
      have htraced := traced_run hprogram s actions
      have hacts := act_cases sys (Runs.final sys.act (Pool.init s) actions) a
      generalize sys.act (Runs.final sys.act (Pool.init s) actions) a = pool' at hacts h
      cases hacts with
      | start | stop | idle => exact absurd h hbefore
      | @step i drawn task op next found =>
        exact Or.inr ⟨actions, i, drawn, task, op, List.prefix_rfl, Pool.task_of_found found,
          (htraced.1 i _ found).1, hbefore, h⟩

/-! ### Rules for pools -/

variable {When : Pool τ Op Ans ε α σ → Action τ κ → Prop}

/-- **The invariant rule for pools.**  What every action that meets the condition
keeps, in pools whose processes are on their trails, holds in every pool reached. -/
theorem invariant {J : Pool τ Op Ans ε α σ → Prop}
    (hprogram : ∀ task, (sys.program task).Trail (P task) (Q task) [])
    (hact : ∀ pool a pool', When pool a → Traced P Q pool → J pool → Acts sys pool a pool' → J pool')
    {actions : List (Action τ κ)} (h : Runs.Along sys.act When pool actions)
    (htraced : Traced P Q pool) (h0 : J pool) :
    Traced P Q (Runs.final sys.act pool actions) ∧ J (Runs.final sys.act pool actions) :=
  h.invariant (I := fun pool => Traced P Q pool ∧ J pool) ⟨htraced, h0⟩
    fun pool a hwhen hJ => ⟨traced_act hprogram hJ.1 a,
      hact pool a _ hwhen hJ.1 hJ.2 (act_cases sys pool a)⟩

/-- **The rule for facts.**  An invariant of the state, and what every answer in
the log says about it, hold in every pool reached, if one operation keeps them and
its own answer says so. -/
theorem facts {I : σ → Prop} {Fact : σ → Entry Op Ans ε → Prop}
    (hprogram : ∀ task, (sys.program task).Trail (P task) (Q task) [])
    (hstep : ∀ (pool : Pool τ Op Ans ε α σ) i drawn task op, When pool (.step i drawn) →
      I pool.state → (∀ e ∈ pool.log, Fact pool.state e.2) → P task (pool.past i) op →
      I (sys.exec drawn op pool.state).2 ∧
        Fact (sys.exec drawn op pool.state).2 ⟨op, (sys.exec drawn op pool.state).1⟩ ∧
        ∀ e, Fact pool.state e → Fact (sys.exec drawn op pool.state).2 e)
    {s : σ} (h0 : I s) {actions : List (Action τ κ)}
    (h : Runs.Along sys.act When (Pool.init s) actions) :
    Traced P Q (Runs.final sys.act (Pool.init s) actions) ∧
      I (Runs.final sys.act (Pool.init s) actions).state ∧
      ∀ e ∈ (Runs.final sys.act (Pool.init s) actions).log,
        Fact (Runs.final sys.act (Pool.init s) actions).state e.2 := by
  refine invariant (J := fun pool => I pool.state ∧ ∀ e ∈ pool.log, Fact pool.state e.2)
    hprogram ?_ h (traced_init s) ⟨h0, fun e he => absurd he List.not_mem_nil⟩
  intro pool a pool' hwhen htraced ⟨hI, hfacts⟩ hacts
  cases hacts with
  | start | stop | idle => exact ⟨hI, hfacts⟩
  | @step i drawn task op next found =>
    have hop : P task (pool.past i) op := (htraced.1 i _ found).1
    obtain ⟨hI', hnew, hkeep⟩ := hstep pool i drawn task op hwhen hI hfacts hop
    refine ⟨hI', ?_⟩
    intro e he
    rcases List.mem_cons.mp he with rfl | he
    · exact hnew
    · exact hkeep e.2 (hfacts e he)

section Runs

variable {s : σ}

/-- The invariant rule for every list of actions. -/
theorem invariant_run {J : Pool τ Op Ans ε α σ → Prop}
    (hprogram : ∀ task, (sys.program task).Trail (P task) (Q task) [])
    (hact : ∀ pool (a : Action τ κ) pool', Traced P Q pool → J pool → Acts sys pool a pool' → J pool')
    (h0 : J (Pool.init s)) (actions : List (Action τ κ)) :
    J (Runs.final sys.act (Pool.init s) actions) := by
  have halong : Runs.Along sys.act (fun _ _ => True) (Pool.init s) actions :=
    Runs.along_of_forall (fun _ _ => trivial) _ actions
  exact (invariant hprogram (fun pool a pool' _ => hact pool a pool') halong (traced_init s) h0).2

/-- The rule for facts, for every list of actions. -/
theorem facts_run {I : σ → Prop} {Fact : σ → Entry Op Ans ε → Prop}
    (hprogram : ∀ task, (sys.program task).Trail (P task) (Q task) [])
    (hstep : ∀ (pool : Pool τ Op Ans ε α σ) i drawn task op, I pool.state →
      (∀ e ∈ pool.log, Fact pool.state e.2) → P task (pool.past i) op →
      I (sys.exec drawn op pool.state).2 ∧
        Fact (sys.exec drawn op pool.state).2 ⟨op, (sys.exec drawn op pool.state).1⟩ ∧
        ∀ e, Fact pool.state e → Fact (sys.exec drawn op pool.state).2 e)
    (h0 : I s) (actions : List (Action τ κ)) :
    I (Runs.final sys.act (Pool.init s) actions).state ∧
      ∀ e ∈ (Runs.final sys.act (Pool.init s) actions).log,
        Fact (Runs.final sys.act (Pool.init s) actions).state e.2 := by
  have halong : Runs.Along sys.act (fun _ _ => True) (Pool.init s) actions :=
    Runs.along_of_forall (fun _ _ => trivial) _ actions
  exact (facts hprogram (fun pool i drawn task op _ => hstep pool i drawn task op) h0 halong).2

end Runs

end System

end Processes
