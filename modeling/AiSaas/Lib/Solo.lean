import AiSaas.Lib.Processes

/-!
# A process alone

While no other process steps, a process runs its program over the state as it
finds it.  What holds before each of its operations, and when it is done, is then
a property of the program and the state alone (`Solo`); a pool in which one
process steps for a while leaves it on that course.

## Main definitions

* `Prog.Solo` — what holds along the course of a program alone.
* `Pool.Draws` — an operation draws what it may.

## Main results

* `Prog.Solo.bind` — the course of a sequence.
* `System.solo_steps` — where the steps of one process lead a pool.
-/

namespace Processes

variable {Op : Type} {Ans : Op → Type} {ε α β σ κ : Type}

namespace Prog

variable {exec : κ → (op : Op) → σ → Except ε (Ans op) × σ} {May : κ → Op → σ → Prop}
  {I I' : List (Entry Op Ans ε) → σ → Prop} {Q Q' : List (Entry Op Ans ε) → σ → Except ε α → Prop}
  {prog : Prog Op Ans ε α} {past : List (Entry Op Ans ε)} {s : σ}

/-- From a past and a state on, alone: before every operation `I` holds, and `Q`
when the program is done, whatever is drawn that may be. -/
def Solo (exec : κ → (op : Op) → σ → Except ε (Ans op) × σ) (May : κ → Op → σ → Prop)
    (I : List (Entry Op Ans ε) → σ → Prop) (Q : List (Entry Op Ans ε) → σ → Except ε α → Prop) :
    Prog Op Ans ε α → List (Entry Op Ans ε) → σ → Prop
  | done r, past, s => Q past s r
  | call op next, past, s => I past s ∧ ∀ d, May d op s →
    Solo exec May I Q (next (exec d op s).1) (⟨op, (exec d op s).1⟩ :: past) (exec d op s).2

theorem Solo.mono (h : prog.Solo exec May I Q past s) (hI : ∀ past s, I past s → I' past s)
    (hQ : ∀ past s r, Q past s r → Q' past s r) : prog.Solo exec May I' Q' past s := by
  induction prog generalizing past s with
  | done r => exact hQ past s r h
  | call op next ih => exact ⟨hI past s h.1, fun d hd => ih _ (h.2 d hd)⟩

/-- **The course of a sequence.** -/
theorem Solo.bind {first : Prog Op Ans ε β} {next : β → Prog Op Ans ε α}
    {M : List (Entry Op Ans ε) → σ → Except ε β → Prop} (h : first.Solo exec May I M past s)
    (hok : ∀ past s b, M past s (.ok b) → (next b).Solo exec May I Q past s)
    (herror : ∀ past s e, M past s (.error e) → Q past s (.error e)) :
    (first >>= next).Solo exec May I Q past s := by
  change (first.bind next).Solo exec May I Q past s
  induction first generalizing past s with
  | done r =>
    cases r with
    | ok b => exact hok past s b h
    | error e => exact herror past s e h
  | call op k ih => exact ⟨h.1, fun d hd => ih _ (h.2 d hd)⟩

/-- A program whose error is looked at takes the same course. -/
theorem Solo.attempt {M : List (Entry Op Ans ε) → σ → Except ε (Except ε α) → Prop}
    (h : prog.Solo exec May I Q past s) (hM : ∀ past s r, Q past s r → M past s (.ok r)) :
    prog.attempt.Solo exec May I M past s := by
  induction prog generalizing past s with
  | done r => exact hM past s r h
  | call op next ih => exact ⟨h.1, fun d hd => ih _ (h.2 d hd)⟩

/-- One operation that returns, then the rest. -/
theorem solo_perform_bind {op : Op} {next : Ans op → Prog Op Ans ε α} (hI : I past s)
    (hnext : ∀ d, May d op s → ∃ a s', exec d op s = (.ok a, s') ∧
      (next a).Solo exec May I Q (⟨op, .ok a⟩ :: past) s') :
    (perform op >>= next).Solo exec May I Q past s := by
  refine ⟨hI, ?_⟩
  intro d hd
  obtain ⟨a, s', hexec, hrest⟩ := hnext d hd
  rw [hexec]
  exact hrest

/-- One operation, whose error is looked at, then the rest. -/
theorem solo_attempt_bind {op : Op} {next : Except ε (Ans op) → Prog Op Ans ε α} (hI : I past s)
    (hnext : ∀ d, May d op s → ∃ r s', exec d op s = (r, s') ∧
      (next r).Solo exec May I Q (⟨op, r⟩ :: past) s') :
    (attempt (perform op) >>= next).Solo exec May I Q past s := by
  refine ⟨hI, ?_⟩
  intro d hd
  obtain ⟨r, s', hexec, hrest⟩ := hnext d hd
  rw [hexec]
  exact hrest

/-- One operation, and its answer is the result. -/
theorem solo_perform {op : Op} {Q : List (Entry Op Ans ε) → σ → Except ε (Ans op) → Prop}
    (hI : I past s) (hlast : ∀ d, May d op s → ∃ r s', exec d op s = (r, s') ∧
      Q (⟨op, r⟩ :: past) s' r) : (perform op).Solo exec May I Q past s := by
  refine ⟨hI, ?_⟩
  intro d hd
  obtain ⟨r, s', hexec, hrest⟩ := hlast d hd
  rw [hexec]
  exact hrest

theorem Solo.ite {c : Prop} [Decidable c] {other : Prog Op Ans ε α}
    (hpos : c → prog.Solo exec May I Q past s) (hneg : ¬ c → other.Solo exec May I Q past s) :
    (if c then prog else other).Solo exec May I Q past s := by
  split
  · next h => exact hpos h
  · next h => exact hneg h

/-! ### Programs that end -/

section Within

variable {P : (op : Op) → Except ε (Ans op) → Prop}

/-- A program that asks for at most so many operations, as long as the answers meet `P`. -/
def Within (P : (op : Op) → Except ε (Ans op) → Prop) : ℕ → Prog Op Ans ε α → Prop
  | _, done _ => True
  | 0, call _ _ => False
  | n + 1, call op next => ∀ r, P op r → Within P n (next r)

theorem within_done {n : ℕ} (r : Except ε α) : (done r : Prog Op Ans ε α).Within P n := by
  cases n <;> trivial

theorem within_perform (op : Op) : (perform op : Prog Op Ans ε (Ans op)).Within P 1 :=
  fun _ _ => trivial

theorem Within.mono {n m : ℕ} (h : prog.Within P n) (hle : n ≤ m) : prog.Within P m := by
  induction prog generalizing n m with
  | done r => exact within_done r
  | call op next ih =>
    rcases n with - | n
    · exact h.elim
    · obtain ⟨m, rfl⟩ : ∃ k, m = k + 1 := ⟨m - 1, by omega⟩
      exact fun r hr => ih r (h r hr) (by omega)

/-- **The operations of a sequence** add up. -/
theorem Within.bind {n m : ℕ} {first : Prog Op Ans ε β} {next : β → Prog Op Ans ε α}
    (h : first.Within P n) (hnext : ∀ b, (next b).Within P m) :
    (first >>= next).Within P (n + m) := by
  change (first.bind next).Within P (n + m)
  induction first generalizing n with
  | done r =>
    cases r with
    | ok b => exact (hnext b).mono (Nat.le_add_left m n)
    | error e => exact within_done _
  | call op k ih =>
    rcases n with - | n
    · exact h.elim
    · rw [Nat.succ_add]
      exact fun r hr => ih r (h r hr)

theorem within_perform_bind {n : ℕ} {op : Op} {next : Ans op → Prog Op Ans ε α}
    (hnext : ∀ a, P op (.ok a) → (next a).Within P n) : (perform op >>= next).Within P (n + 1) := by
  intro r hr
  cases r with
  | ok a => exact hnext a hr
  | error e => exact within_done _

theorem Within.attempt {n : ℕ} (h : prog.Within P n) : prog.attempt.Within P n := by
  induction prog generalizing n with
  | done r => exact within_done _
  | call op next ih =>
    rcases n with - | n
    · exact h.elim
    · exact fun r hr => ih r (h r hr)

theorem Within.ite {n : ℕ} {c : Prop} [Decidable c] {other : Prog Op Ans ε α}
    (hpos : prog.Within P n) (hneg : other.Within P n) :
    (if c then prog else other).Within P n := by
  split
  · exact hpos
  · exact hneg

end Within

end Prog

variable {τ : Type} {sys : System τ Op Ans ε α σ κ} {pool : Pool τ Op Ans ε α σ}
  {May : κ → Op → σ → Prop} {I : List (Entry Op Ans ε) → σ → Prop}
  {Q : List (Entry Op Ans ε) → σ → Except ε α → Prop}

/-- What a process that is done has resulted in. -/
def Pool.result (pool : Pool τ Op Ans ε α σ) (i : ℕ) : Option (Except ε α) :=
  match pool.procs[i]? with
  | some ⟨_, .done r, _⟩ => some r
  | _ => none

/-- Every operation draws what it may. -/
def Pool.Draws (May : κ → Op → σ → Prop) (pool : Pool τ Op Ans ε α σ) : Action τ κ → Prop
  | .step i drawn => ∀ op, pool.asked i = some op → May drawn op pool.state
  | _ => True

instance [∀ d op s, Decidable (May d op s)] (a : Action τ κ) : Decidable (pool.Draws May a) :=
  match a with
  | .start _ => isTrue trivial
  | .step i drawn =>
    match h : pool.asked i with
    | none => isTrue fun op hop => by rw [h] at hop; cases hop
    | some op => decidable_of_iff (May drawn op pool.state)
      ⟨fun hmay op' hop => by rw [h] at hop; exact Option.some.inj hop ▸ hmay, fun hall => hall op h⟩
  | .stop _ => isTrue trivial

namespace System

/-- A process that asks for an operation gets its answer. -/
theorem act_of_call {i : ℕ} {drawn : κ} {task : τ} {op : Op}
    {next : Except ε (Ans op) → Prog Op Ans ε α}
    (found : pool.procs[i]? = some ⟨task, .call op next, true⟩) :
    sys.act pool (.step i drawn) = sys.after pool i drawn task op next := by
  simp only [act, found]

/-- A process that is done does not step. -/
theorem act_of_done {i : ℕ} {drawn : κ} {task : τ} {r : Except ε α}
    (found : pool.procs[i]? = some ⟨task, .done r, true⟩) :
    sys.act pool (.step i drawn) = pool := by
  simp only [act, found]

theorem final_of_done {i : ℕ} {task : τ} {r : Except ε α} {draws : List κ}
    (found : pool.procs[i]? = some ⟨task, .done r, true⟩) :
    Runs.final sys.act pool (draws.map (.step i)) = pool := by
  induction draws with
  | nil => rfl
  | cons d ds ih =>
    rw [List.map_cons, Runs.final_cons, act_of_done found]
    exact ih

/-- **The steps of one process** take it along its course and leave the others where
they are. -/
theorem solo_steps {i : ℕ} {task : τ} (draws : List κ) {pool : Pool τ Op Ans ε α σ}
    {prog : Prog Op Ans ε α} (found : pool.procs[i]? = some ⟨task, prog, true⟩)
    (h : prog.Solo sys.exec May I Q (pool.past i) pool.state)
    (hdraws : Runs.Along sys.act (Pool.Draws May) pool (draws.map (.step i))) :
    ∃ prog' new, (Runs.final sys.act pool (draws.map (.step i))).procs
        = pool.procs.set i ⟨task, prog', true⟩ ∧
      (Runs.final sys.act pool (draws.map (.step i))).log = new.map (fun e => (i, e)) ++ pool.log ∧
      (prog'.isDone = false → new.length = draws.length) ∧ new.length ≤ draws.length ∧
      prog'.Solo sys.exec May I Q (new ++ pool.past i)
        (Runs.final sys.act pool (draws.map (.step i))).state := by
  induction draws generalizing pool prog with
  | nil =>
    refine ⟨prog, [], ?_, rfl, fun _ => rfl, le_rfl, h⟩
    obtain ⟨hi, hget⟩ := List.getElem?_eq_some_iff.mp found
    exact (hget ▸ List.set_getElem_self hi).symm
  | cons d ds ih =>
    rcases prog with r | ⟨op, next⟩
    · rw [final_of_done found]
      refine ⟨.done r, [], ?_, rfl, fun hdone => (by cases hdone), Nat.zero_le _, h⟩
      obtain ⟨hi, hget⟩ := List.getElem?_eq_some_iff.mp found
      exact (hget ▸ List.set_getElem_self hi).symm
    · have hdraws' := hdraws.2
      rw [act_of_call found] at hdraws'
      rw [List.map_cons, Runs.final_cons, act_of_call found]
      have hi : i < pool.procs.length := (List.getElem?_eq_some_iff.mp found).1
      have found' : (sys.after pool i d task op next).procs[i]?
          = some ⟨task, next (sys.exec d op pool.state).1, true⟩ := List.getElem?_set_self hi
      have hpast : (sys.after pool i d task op next).past i
          = ⟨op, (sys.exec d op pool.state).1⟩ :: pool.past i := by
        rw [past_after, if_pos rfl]
      have hnext := h.2 d (hdraws.1 op (Pool.asked_of_found found))
      obtain ⟨prog', new, hprocs, hlog, hlength, hle, hsolo⟩ :=
        ih found' (by rw [hpast]; exact hnext) hdraws'
      refine ⟨prog', new ++ [⟨op, (sys.exec d op pool.state).1⟩], ?_, ?_, ?_, ?_, ?_⟩
      · rw [hprocs]
        exact List.set_set ..
      · rw [hlog, List.map_append, List.append_assoc]
        rfl
      · intro hdone
        rw [List.length_append, hlength hdone]
        rfl
      · rw [List.length_append]
        simpa using hle
      · rw [List.append_assoc]
        rw [hpast] at hsolo
        exact hsolo

/-- A process that has stepped as often as there were draws, and is not done. -/
theorem solo_stopped {i : ℕ} {task : τ} {draws : List κ} {prog : Prog Op Ans ε α}
    (found : pool.procs[i]? = some ⟨task, prog, true⟩) (hpast : pool.past i = [])
    (h : prog.Solo sys.exec May I Q [] pool.state)
    (hdraws : Runs.Along sys.act (Pool.Draws May) pool (draws.map (.step i)))
    (hlong : ∀ past s r, Q past s r → draws.length < past.length) :
    ∃ prog' new, (Runs.final sys.act pool (draws.map (.step i))).procs
        = pool.procs.set i ⟨task, prog', true⟩ ∧
      (Runs.final sys.act pool (draws.map (.step i))).log = new.map (fun e => (i, e)) ++ pool.log ∧
      new.length = draws.length ∧ I new (Runs.final sys.act pool (draws.map (.step i))).state := by
  obtain ⟨prog', new, hprocs, hlog, hlength, hle, hsolo⟩ :=
    solo_steps draws found (hpast.symm ▸ h) hdraws
  rw [hpast, List.append_nil] at hsolo
  rcases prog' with r | ⟨op, next⟩
  · have hlt := hlong _ _ _ hsolo
    omega
  · exact ⟨_, new, hprocs, hlog, hlength rfl, hsolo.1⟩

/-- A process that has more draws than its program has operations is done. -/
theorem solo_done {i m : ℕ} {task : τ} {draws : List κ} {prog : Prog Op Ans ε α}
    (found : pool.procs[i]? = some ⟨task, prog, true⟩) (hpast : pool.past i = [])
    (h : prog.Solo sys.exec May I Q [] pool.state)
    (hdraws : Runs.Along sys.act (Pool.Draws May) pool (draws.map (.step i)))
    (hshort : ∀ past s, I past s → past.length < m) (hm : m ≤ draws.length) :
    ∃ r new, (Runs.final sys.act pool (draws.map (.step i))).result i = some r ∧
      (Runs.final sys.act pool (draws.map (.step i))).log = new.map (fun e => (i, e)) ++ pool.log ∧
      Q new (Runs.final sys.act pool (draws.map (.step i))).state r := by
  obtain ⟨prog', new, hprocs, hlog, hlength, hle, hsolo⟩ :=
    solo_steps draws found (hpast.symm ▸ h) hdraws
  rw [hpast, List.append_nil] at hsolo
  rcases prog' with r | ⟨op, next⟩
  · refine ⟨r, new, ?_, hlog, hsolo⟩
    rw [Pool.result, hprocs, List.getElem?_set_self (List.getElem?_eq_some_iff.mp found).1]
  · have hlt := hshort _ _ hsolo.1
    have hfull := hlength rfl
    omega

/-- A process with as many draws as its program may ask operations has a result. -/
theorem result_of_within {P : (op : Op) → Except ε (Ans op) → Prop} {J : σ → Prop}
    (hJ : ∀ d op s, J s → P op (sys.exec d op s).1 ∧ J (sys.exec d op s).2) {i m : ℕ} {task : τ}
    {draws : List κ} {pool : Pool τ Op Ans ε α σ} {prog : Prog Op Ans ε α}
    (found : pool.procs[i]? = some ⟨task, prog, true⟩) (hs : J pool.state) (h : prog.Within P m)
    (hm : m ≤ draws.length) :
    ∃ r, (Runs.final sys.act pool (draws.map (.step i))).result i = some r := by
  induction draws generalizing pool prog m with
  | nil =>
    obtain rfl : m = 0 := Nat.le_zero.mp hm
    rcases prog with r | ⟨op, next⟩
    · refine ⟨r, ?_⟩
      rw [List.map_nil, Runs.final_nil, Pool.result, found]
    · exact h.elim
  | cons d ds ih =>
    rcases prog with r | ⟨op, next⟩
    · refine ⟨r, ?_⟩
      rw [final_of_done found, Pool.result, found]
    · rcases m with - | m
      · exact h.elim
      · rw [List.map_cons, Runs.final_cons, act_of_call found]
        have hi : i < pool.procs.length := (List.getElem?_eq_some_iff.mp found).1
        obtain ⟨hP, hs'⟩ := hJ d op pool.state hs
        exact ih (List.getElem?_set_self hi) hs' (h _ hP) (Nat.le_of_succ_le_succ hm)

/-- What every operation keeps, every action keeps. -/
theorem act_keeps {J : σ → Prop} (hJ : ∀ d op s, J s → J (sys.exec d op s).2)
    {pool : Pool τ Op Ans ε α σ} (hs : J pool.state) (a : Action τ κ) :
    J (sys.act pool a).state := by
  have hacts := act_cases sys pool a
  generalize sys.act pool a = pool' at hacts ⊢
  cases hacts with
  | start | stop | idle => exact hs
  | step drawn found => exact hJ _ _ _ hs

/-! ### Attempts -/

/-- A task is attempted over and over: each attempt is stopped, and the next begins. -/
def attempts (task : τ) : ℕ → List (List κ) → List (Action τ κ)
  | _, [] => []
  | i, draws :: rest => .start task :: (draws.map (.step i) ++ .stop i :: attempts task (i + 1) rest)

/-- Every operation draws what it may, and an attempt is stopped before it is done, in
a state that is safe. -/
def Attempted (May : ℕ → κ → Op → σ → Prop) (Safe : σ → Prop) (pool : Pool τ Op Ans ε α σ) :
    Action τ κ → Prop
  | .start _ => True
  | .step i drawn => ∀ op, pool.asked i = some op → May i drawn op pool.state
  | .stop i => (pool.asked i).isSome = true ∧ Safe pool.state

instance {May : ℕ → κ → Op → σ → Prop} {Safe : σ → Prop} [∀ i d op s, Decidable (May i d op s)]
    [∀ s, Decidable (Safe s)] (a : Action τ κ) : Decidable (Attempted May Safe pool a) :=
  match a with
  | .start _ => isTrue trivial
  | .step i drawn => inferInstanceAs (Decidable (pool.Draws (May i) (.step i drawn)))
  | .stop i => inferInstanceAs (Decidable ((pool.asked i).isSome = true ∧ Safe pool.state))

/-- A process that starts is at the front of its program. -/
theorem start_found (pool : Pool τ Op Ans ε α σ) (task : τ) :
    (sys.act pool (.start task)).procs[pool.procs.length]? = some ⟨task, sys.program task, true⟩ := by
  change (pool.procs ++ [_])[_]? = _
  rw [List.getElem?_append_right le_rfl, Nat.sub_self]
  rfl

/-- Where one attempt leads a pool whose processes have all come to their end. -/
theorem attempt_steps {May : ℕ → κ → Op → σ → Prop} {Safe : σ → Prop} {task : τ} {draws : List κ}
    (h : (sys.program task).Solo sys.exec (May pool.procs.length) I Q [] pool.state)
    (hlog : ∀ e ∈ pool.log, e.1 < pool.procs.length)
    (hdraws : Runs.Along sys.act (Attempted May Safe) (sys.act pool (.start task))
      (draws.map (.step pool.procs.length))) :
    ∃ prog new, (Runs.final sys.act (sys.act pool (.start task))
        (draws.map (.step pool.procs.length))).procs = pool.procs ++ [⟨task, prog, true⟩] ∧
      (∀ e ∈ (Runs.final sys.act (sys.act pool (.start task))
        (draws.map (.step pool.procs.length))).log, e.1 < pool.procs.length + 1) ∧
      prog.Solo sys.exec (May pool.procs.length) I Q new (Runs.final sys.act
        (sys.act pool (.start task)) (draws.map (.step pool.procs.length))).state := by
  have hpast : (sys.act pool (.start task)).past pool.procs.length = [] := by
    apply List.eq_nil_iff_forall_not_mem.mpr
    intro e he
    exact absurd (hlog _ (Pool.mem_past.mp he)) (lt_irrefl _)
  have hmay : Runs.Along sys.act (Pool.Draws (May pool.procs.length)) (sys.act pool (.start task))
      (draws.map (.step pool.procs.length)) := by
    refine hdraws.mono_of_mem fun a ha s hs => ?_
    obtain ⟨d, -, rfl⟩ := List.mem_map.mp ha
    exact hs
  obtain ⟨prog, new, hprocs, hnew, -, -, hsolo⟩ :=
    solo_steps draws (start_found pool task) (hpast.symm ▸ h) hmay
  rw [hpast, List.append_nil] at hsolo
  refine ⟨prog, new, ?_, ?_, hsolo⟩
  · rw [hprocs]
    change (pool.procs ++ [_]).set _ _ = _
    rw [List.set_append_right _ _ le_rfl, Nat.sub_self]
    rfl
  · rw [hnew]
    intro e he
    rcases List.mem_append.mp he with he | he
    · obtain ⟨e', -, rfl⟩ := List.mem_map.mp he
      exact Nat.lt_succ_self _
    · exact Nat.lt_succ_of_lt (hlog e he)

/-- **The restart rule.**  If a program alone, from a state that is ready, comes to what
is wanted, and a safe state on its way is ready again, then it comes to what is wanted
after any number of attempts that were stopped in safe states, once an attempt is let
go on for as long as the program may take. -/
theorem restart {May : ℕ → κ → Op → σ → Prop} {Safe Ready J : σ → Prop}
    {Done : σ → Except ε α → Prop} {P : (op : Op) → Except ε (Ans op) → Prop} {task : τ} {m : ℕ}
    (hJ : ∀ d op s, J s → P op (sys.exec d op s).1 ∧ J (sys.exec d op s).2) (hready : ∀ i s, Ready s → (sys.program task).Solo sys.exec (May i)
      (fun _ s => Safe s → Ready s) (fun _ s r => Done s r) [] s)
    (hwithin : (sys.program task).Within P m) (stopped : List (List κ)) {last : List κ}
    (hlast : m ≤ last.length) (hs : Ready pool.state) (hkept : J pool.state) (hlog : ∀ e ∈ pool.log, e.1 < pool.procs.length)
    (h : Runs.Along sys.act (Attempted May Safe) pool (attempts task pool.procs.length stopped ++
      .start task :: last.map (.step (pool.procs.length + stopped.length)))) :
    ∃ r, (Runs.final sys.act pool (attempts task pool.procs.length stopped ++
        .start task :: last.map (.step (pool.procs.length + stopped.length)))).result
          (pool.procs.length + stopped.length) = some r ∧
      Done (Runs.final sys.act pool (attempts task pool.procs.length stopped ++
        .start task :: last.map (.step (pool.procs.length + stopped.length)))).state r := by
  induction stopped generalizing pool with
  | nil =>
    obtain ⟨prog, new, hprocs, -, hsolo⟩ := attempt_steps (hready _ _ hs) hlog h.2
    obtain ⟨r, hr⟩ := result_of_within hJ (start_found pool task) hkept hwithin hlast
    rw [attempts, List.nil_append, Runs.final_cons, List.length_nil, Nat.add_zero]
    refine ⟨r, hr, ?_⟩
    rw [Pool.result, hprocs, List.getElem?_append_right le_rfl, Nat.sub_self] at hr
    cases prog with
    | done r' =>
      obtain rfl : r' = r := Option.some.inj hr
      exact hsolo
    | call op next => cases hr
  | cons draws rest ih =>
    have hindex : pool.procs.length + (draws :: rest).length
        = pool.procs.length + 1 + rest.length := by
      simp only [List.length_cons]
      omega
    rw [hindex, attempts, List.cons_append, List.append_assoc, List.cons_append] at h ⊢
    obtain ⟨-, h⟩ := h
    obtain ⟨hdraws, ⟨hasked, hsafe⟩, hrest⟩ := Runs.along_append.mp h
    obtain ⟨prog, new, hprocs, hlog', hsolo⟩ := attempt_steps (hready _ _ hs) hlog hdraws
    rw [Runs.final_cons, Runs.final_append, Runs.final_cons]
    have hkept' := Runs.invariant (I := fun pool : Pool τ Op Ans ε α σ => J pool.state)
      (s := sys.act pool (.start task)) hkept
      (fun _ a hs => act_keeps (fun d op s hs => (hJ d op s hs).2) hs a)
      (draws.map (.step pool.procs.length))
    generalize Runs.final sys.act (sys.act pool (.start task))
      (draws.map (.step pool.procs.length)) = pool' at *
    have hready' : Ready pool'.state := by
      cases prog with
      | done r' =>
        rw [Pool.asked, hprocs, List.getElem?_append_right le_rfl, Nat.sub_self] at hasked
        cases hasked
      | call op next => exact hsolo.1 hsafe
    have hlength : (sys.act pool' (.stop pool.procs.length)).procs.length
        = pool.procs.length + 1 := by
      change (pool'.procs.modify _ _).length = _
      rw [List.length_modify, hprocs, List.length_append]
      rfl
    rw [← hlength] at hrest ⊢
    exact ih hready' hkept' (by rw [hlength]; exact hlog') hrest

end System

end Processes
