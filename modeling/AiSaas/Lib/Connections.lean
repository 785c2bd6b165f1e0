import AiSaas.Lib.Interrupts

/-!
# Threads on one connection

Several threads share one connection.  A transaction holds a lock from its BEGIN to its
COMMIT or ROLLBACK; a statement outside a transaction needs no lock and is committed by
itself, unless another thread has a transaction open: then it is a part of that one.  A
rollback takes the database back to what it was at BEGIN, whoever has written since.

## Main definitions

* `Operation`, `Thread` — a program of single statements or a transaction, and how far
  it has come.
* `Connection`, `Server.act` — the shared connection and its turns.
* `Connection.kept`, `Server.replay` — the statements of the threads that were not rolled
  back, and what they make of a database.
* `Server.Unmixed` — no other thread has written into a transaction that is rolled back.
* `Server.Sound` — the database is what the kept statements make.

## Main results

* `Server.act_cases` — everything a turn can do.
* `Server.sound_run` — along every unmixed run the database is sound.
* `Server.Sound.returned_kept` — the statements of what returned are kept.
-/

namespace Connections

open Processes

variable {τ Op : Type} {Ans : Op → Type} {ε α σ κ : Type}

/-! ### Threads -/

/-- What a thread is to run: single statements, or a transaction around them. -/
inductive Operation (Op : Type) (Ans : Op → Type) (ε α : Type) where
  | alone (prog : Prog Op Ans ε α)
  | transaction (body : Prog Op Ans ε α)

/-- How far a thread has come: on its own, before BEGIN, or behind it. -/
inductive Thread (Op : Type) (Ans : Op → Type) (ε α : Type) where
  | alone (prog : Prog Op Ans ε α)
  | waiting (body : Prog Op Ans ε α)
  | inside (body : Prog Op Ans ε α)

/-- A thread that has done nothing yet. -/
def Operation.thread : Operation Op Ans ε α → Thread Op Ans ε α
  | alone prog => .alone prog
  | transaction body => .waiting body

/-- What is left of a thread's program. -/
def Thread.prog : Thread Op Ans ε α → Prog Op Ans ε α
  | alone prog => prog
  | waiting body => body
  | inside body => body

/-- The open transaction: whose it is, the database at its BEGIN, and whether another
thread has written since. -/
structure Opened (σ : Type) where
  holder : ℕ
  saved : σ
  mixed : Bool

/-- A connection, its threads, the statements they have made, newest first, and the
threads whose transactions were rolled back. -/
structure Connection (τ Op : Type) (Ans : Op → Type) (ε α σ : Type) where
  db : σ
  opened : Option (Opened σ)
  threads : List (τ × Thread Op Ans ε α)
  log : List (ℕ × Op)
  undone : List ℕ

/-- A turn: a call comes in, or a thread goes on. -/
inductive Turn (τ κ : Type) where
  | start (task : τ)
  | step (i : ℕ) (drawn : κ)

/-- What the threads run on: the operation of each task, what a statement does, which
statements write, and what a statement makes of the database. -/
structure Server (τ Op : Type) (Ans : Op → Type) (ε α σ κ : Type) where
  operation : τ → Operation Op Ans ε α
  exec : κ → (op : Op) → σ → Except ε (Ans op) × σ
  writes : Op → Bool
  effect : Op → σ → σ
  effect_of_read : ∀ op, writes op = false → ∀ s, effect op s = s

namespace Connection

/-- A connection before any call. -/
def new (s : σ) : Connection τ Op Ans ε α σ := ⟨s, none, [], [], []⟩

variable (c : Connection τ Op Ans ε α σ)

/-- The statements of the threads that were not rolled back. -/
def kept : List (ℕ × Op) := c.log.filter fun e => decide (e.1 ∉ c.undone)

/-- A thread has come to the ROLLBACK of its transaction. -/
def rollsBack (i : ℕ) : Bool :=
  match c.threads[i]? with
  | some (_, .inside (.done (.error _))) => true
  | _ => false

/-- The operation of a thread has returned. -/
def returned (i : ℕ) : Bool :=
  match c.threads[i]? with
  | some (_, .alone (.done (.ok _))) => true
  | _ => false

end Connection

namespace Server

variable (srv : Server τ Op Ans ε α σ κ) (c : Connection τ Op Ans ε α σ)

/-- The connection after a statement of a thread. -/
def after (i : ℕ) (drawn : κ) (op : Op) (thread : τ × Thread Op Ans ε α) :
    Connection τ Op Ans ε α σ where
  db := (srv.exec drawn op c.db).2
  opened := c.opened.map fun o =>
    { o with mixed := o.mixed || (srv.writes op && decide (i ≠ o.holder)) }
  threads := c.threads.set i thread
  log := (i, op) :: c.log
  undone := c.undone

/-- BEGIN. -/
def begun (i : ℕ) (task : τ) (body : Prog Op Ans ε α) : Connection τ Op Ans ε α σ :=
  { c with opened := some ⟨i, c.db, false⟩, threads := c.threads.set i (task, .inside body) }

/-- COMMIT. -/
def committed (i : ℕ) (task : τ) (a : α) : Connection τ Op Ans ε α σ :=
  { c with opened := none, threads := c.threads.set i (task, .alone (.done (.ok a))) }

/-- ROLLBACK. -/
def rolledBack (i : ℕ) (task : τ) (e : ε) : Connection τ Op Ans ε α σ :=
  { c with
    db := (c.opened.map Opened.saved).getD c.db
    opened := none
    threads := c.threads.set i (task, .alone (.done (.error e)))
    undone := i :: c.undone }

/-- The connection after a turn.  BEGIN waits for the lock. -/
def act : Turn τ κ → Connection τ Op Ans ε α σ
  | .start task => { c with threads := c.threads ++ [(task, (srv.operation task).thread)] }
  | .step i drawn =>
    match c.threads[i]? with
    | some (task, .alone (.call op next)) =>
      srv.after c i drawn op (task, .alone (next (srv.exec drawn op c.db).1))
    | some (task, .waiting body) => if c.opened.isSome then c else begun c i task body
    | some (task, .inside (.call op next)) =>
      srv.after c i drawn op (task, .inside (next (srv.exec drawn op c.db).1))
    | some (task, .inside (.done (.ok a))) => committed c i task a
    | some (task, .inside (.done (.error e))) => rolledBack c i task e
    | _ => c

/-- What statements make of a database, newest first. -/
def replay (s : σ) (log : List (ℕ × Op)) : σ := log.foldr (fun e s => srv.effect e.2 s) s

/-- A thread that comes to its ROLLBACK finds that no other has written since its BEGIN. -/
def Unmixed : Turn τ κ → Prop
  | .start _ => True
  | .step i _ => c.rollsBack i = true → c.opened.any Opened.mixed = false

instance (turn : Turn τ κ) : Decidable (Unmixed c turn) :=
  match turn with
  | .start _ => isTrue trivial
  | .step i _ => inferInstanceAs (Decidable (c.rollsBack i = true → c.opened.any _ = false))

/-- A statement whose effect does not depend on what is drawn. -/
def Plain (op : Op) : Prop := ∀ d s, (srv.exec d op s).2 = srv.effect op s

variable {srv c} {c' : Connection τ Op Ans ε α σ}

/-! ### Turns -/

/-- What a turn does. -/
inductive Acts (srv : Server τ Op Ans ε α σ κ) (c : Connection τ Op Ans ε α σ) :
    Turn τ κ → Connection τ Op Ans ε α σ → Prop
  | start (task : τ) : Acts srv c (.start task)
      { c with threads := c.threads ++ [(task, (srv.operation task).thread)] }
  | idle (turn : Turn τ κ) : Acts srv c turn c
  | alone {i : ℕ} (drawn : κ) {task : τ} {op : Op} {next : Except ε (Ans op) → Prog Op Ans ε α}
      (found : c.threads[i]? = some (task, .alone (.call op next))) :
      Acts srv c (.step i drawn)
        (srv.after c i drawn op (task, .alone (next (srv.exec drawn op c.db).1)))
  | inside {i : ℕ} (drawn : κ) {task : τ} {op : Op} {next : Except ε (Ans op) → Prog Op Ans ε α}
      (found : c.threads[i]? = some (task, .inside (.call op next))) :
      Acts srv c (.step i drawn)
        (srv.after c i drawn op (task, .inside (next (srv.exec drawn op c.db).1)))
  | begun {i : ℕ} (drawn : κ) {task : τ} {body : Prog Op Ans ε α}
      (found : c.threads[i]? = some (task, .waiting body)) (free : c.opened = none) :
      Acts srv c (.step i drawn) (begun c i task body)
  | committed {i : ℕ} (drawn : κ) {task : τ} {a : α}
      (found : c.threads[i]? = some (task, .inside (.done (.ok a)))) :
      Acts srv c (.step i drawn) (committed c i task a)
  | rolledBack {i : ℕ} (drawn : κ) {task : τ} {e : ε}
      (found : c.threads[i]? = some (task, .inside (.done (.error e)))) :
      Acts srv c (.step i drawn) (rolledBack c i task e)

/-- **What a turn does to a connection.** -/
theorem act_cases (srv : Server τ Op Ans ε α σ κ) (c : Connection τ Op Ans ε α σ)
    (turn : Turn τ κ) : Acts srv c turn (srv.act c turn) := by
  cases turn with
  | start task => exact .start task
  | step i drawn =>
    simp only [act]
    split
    · next found => exact .alone drawn found
    · next found =>
      split
      · exact .idle _
      · next hfree => exact .begun drawn found (by simpa using hfree)
    · next found => exact .inside drawn found
    · next found => exact .committed drawn found
    · next found => exact .rolledBack drawn found
    · exact .idle _

/-! ### What holds of a connection -/

/-- The database is what the kept statements make of the first one; while a transaction
is open and no other thread has written since, what it has saved is what they make
without its own. -/
structure Sound (srv : Server τ Op Ans ε α σ κ) (s₀ : σ) (c : Connection τ Op Ans ε α σ) :
    Prop where
  db : c.db = srv.replay s₀ c.kept
  saved : ∀ o, c.opened = some o → o.mixed = false →
    o.saved = srv.replay s₀ (c.log.filter fun e => decide (e.1 ∉ o.holder :: c.undone))
  holder : ∀ (i : ℕ) (task : τ) (body : Prog Op Ans ε α), c.threads[i]? = some (task, .inside body) →
    ∃ o, c.opened = some o ∧ o.holder = i
  fresh : ∀ (i : ℕ) (task : τ) (body : Prog Op Ans ε α), c.threads[i]? = some (task, .waiting body) →
    ∀ e ∈ c.log, e.1 ≠ i
  known : ∀ e ∈ c.log, e.1 < c.threads.length
  ended : ∀ i ∈ c.undone, ∃ task e, c.threads[i]? = some (task, .alone (.done (.error e)))
  asks : ∀ (i : ℕ) (task : τ) (thread : Thread Op Ans ε α), c.threads[i]? = some (task, thread) →
    thread.prog.Asks srv.Plain

theorem sound_new (srv : Server τ Op Ans ε α σ κ) (s₀ : σ) :
    srv.Sound s₀ (Connection.new s₀) := by
  constructor <;> simp [Connection.new, Connection.kept, replay]

/-- A thread of the connection after one of its threads has changed. -/
theorem getElem?_set {threads : List (τ × Thread Op Ans ε α)} {i j : ℕ}
    {new found : τ × Thread Op Ans ε α} (h : (threads.set i new)[j]? = some found) :
    (j = i ∧ found = new) ∨ (j ≠ i ∧ threads[j]? = some found) := by
  by_cases hij : i = j
  · subst hij
    have hi : i < threads.length := by
      have hlt := (List.getElem?_eq_some_iff.mp h).1
      rwa [List.length_set] at hlt
    rw [List.getElem?_set_self hi] at h
    exact Or.inl ⟨rfl, (Option.some.inj h).symm⟩
  · rw [List.getElem?_set_ne hij] at h
    exact Or.inr ⟨Ne.symm hij, h⟩

/-- A thread that is not done has not been rolled back. -/
theorem Sound.notMem_undone {s₀ : σ} (h : srv.Sound s₀ c) {i : ℕ} {task : τ}
    {thread : Thread Op Ans ε α} (found : c.threads[i]? = some (task, thread))
    (hthread : ∀ e, thread ≠ .alone (.done (.error e))) : i ∉ c.undone := by
  intro hi
  obtain ⟨task', e, hended⟩ := h.ended i hi
  rw [found] at hended
  exact hthread e (Prod.mk.inj (Option.some.inj hended)).2

/-- **A statement keeps the connection sound.** -/
theorem Sound.after {s₀ : σ} (h : srv.Sound s₀ c) {i : ℕ} {drawn : κ} {task : τ} {op : Op}
    {thread thread' : Thread Op Ans ε α} (found : c.threads[i]? = some (task, thread))
    (hundone : i ∉ c.undone) (hplain : srv.Plain op) (hasks : thread'.prog.Asks srv.Plain)
    (hwaiting : ∀ body, thread' ≠ .waiting body)
    (hinside : ∀ body, thread' = .inside body → ∃ body', thread = .inside body') :
    srv.Sound s₀ (srv.after c i drawn op (task, thread')) where
  db := by
    have hkept : (srv.after c i drawn op (task, thread')).kept = (i, op) :: c.kept := by
      rw [Connection.kept, Server.after, List.filter_cons_of_pos (by simpa using hundone)]
      rfl
    rw [hkept, replay, List.foldr_cons]
    exact (hplain drawn c.db).trans (congrArg _ h.db)
  saved o ho hmixed := by
    obtain ⟨o', ho', rfl⟩ := Option.map_eq_some_iff.mp ho
    obtain ⟨hclean, hwrote⟩ := Bool.or_eq_false_iff.mp hmixed
    have hold := h.saved o' ho' hclean
    change o'.saved = srv.replay s₀
      (((i, op) :: c.log).filter fun e => decide (e.1 ∉ o'.holder :: c.undone))
    by_cases hi : i = o'.holder
    · -- the statement is one of the transaction itself
      rw [List.filter_cons_of_neg (by simp [hi])]
      exact hold
    · -- the statement of another thread is a read
      have hread : srv.writes op = false := by simpa [hi] using hwrote
      rw [List.filter_cons_of_pos (by simpa [hi] using hundone), replay, List.foldr_cons,
        srv.effect_of_read op hread]
      exact hold
  holder j task' body hj := by
    have hopened : ∀ o, c.opened = some o →
        ∃ o', (srv.after c i drawn op (task, thread')).opened = some o' ∧ o'.holder = o.holder := by
      intro o ho
      exact ⟨{ o with mixed := o.mixed || (srv.writes op && decide (i ≠ o.holder)) },
        congrArg (Option.map _) ho, rfl⟩
    rcases getElem?_set hj with ⟨rfl, hnew⟩ | ⟨-, hj⟩
    · obtain ⟨body', rfl⟩ := hinside body (Prod.mk.inj hnew).2.symm
      obtain ⟨o, ho, hholder⟩ := h.holder j task body' found
      obtain ⟨o', ho', hsame⟩ := hopened o ho
      exact ⟨o', ho', hsame.trans hholder⟩
    · obtain ⟨o, ho, hholder⟩ := h.holder j task' body hj
      obtain ⟨o', ho', hsame⟩ := hopened o ho
      exact ⟨o', ho', hsame.trans hholder⟩
  fresh j task' body hj e he := by
    rcases getElem?_set hj with ⟨-, hnew⟩ | ⟨hne, hj⟩
    · exact absurd (Prod.mk.inj hnew).2.symm (hwaiting body)
    · rcases List.mem_cons.mp he with rfl | he
      · exact Ne.symm hne
      · exact h.fresh j task' body hj e he
  known e he := by
    change e.1 < (c.threads.set i _).length
    rw [List.length_set]
    rcases List.mem_cons.mp he with rfl | he
    · exact (List.getElem?_eq_some_iff.mp found).1
    · exact h.known e he
  ended j hj := by
    have hne : i ≠ j := by
      rintro rfl
      exact hundone hj
    change ∃ task e, (c.threads.set i _)[j]? = some (task, .alone (.done (.error e)))
    rw [List.getElem?_set_ne hne]
    exact h.ended j hj
  asks j task' found' hj := by
    rcases getElem?_set hj with ⟨-, hnew⟩ | ⟨-, hj⟩
    · rw [(Prod.mk.inj hnew).2]
      exact hasks
    · exact h.asks j task' found' hj

/-- BEGIN keeps the connection sound: the thread has made no statement yet. -/
theorem Sound.begun {s₀ : σ} (h : srv.Sound s₀ c) {i : ℕ} {task : τ} {body : Prog Op Ans ε α}
    (found : c.threads[i]? = some (task, .waiting body)) (free : c.opened = none) :
    srv.Sound s₀ (begun c i task body) where
  db := h.db
  saved o ho _ := by
    obtain rfl := Option.some.inj ho
    have hsame : c.log.filter (fun e => decide (e.1 ∉ i :: c.undone)) = c.kept := by
      apply List.filter_congr
      intro e he
      have hne := h.fresh i task body found e he
      simp [hne]
    change c.db = srv.replay s₀ (c.log.filter fun e => decide (e.1 ∉ i :: c.undone))
    rw [hsame, h.db]
  holder j task' body' hj := by
    rcases getElem?_set hj with ⟨rfl, -⟩ | ⟨-, hj⟩
    · exact ⟨_, rfl, rfl⟩
    · obtain ⟨o, ho, -⟩ := h.holder j task' body' hj
      rw [free] at ho
      cases ho
  fresh j task' body' hj := by
    rcases getElem?_set hj with ⟨-, hnew⟩ | ⟨-, hj⟩
    · cases (Prod.mk.inj hnew).2
    · exact h.fresh j task' body' hj
  known e he := by
    change e.1 < (c.threads.set i _).length
    rw [List.length_set]
    exact h.known e he
  ended j hj := by
    have hundone := h.notMem_undone found fun e he => by cases he
    change ∃ task e, (c.threads.set i _)[j]? = some (task, .alone (.done (.error e)))
    rw [List.getElem?_set_ne (by rintro rfl; exact hundone hj)]
    exact h.ended j hj
  asks j task' found' hj := by
    rcases getElem?_set hj with ⟨-, hnew⟩ | ⟨-, hj⟩
    · have hbody := h.asks i task _ found
      rw [(Prod.mk.inj hnew).2]
      exact hbody
    · exact h.asks j task' found' hj

/-- Where one thread is inside its transaction, no other is. -/
theorem Sound.only_inside {s₀ : σ} (h : srv.Sound s₀ c) {i j : ℕ} {task task' : τ}
    {body body' : Prog Op Ans ε α} (found : c.threads[i]? = some (task, .inside body))
    (found' : c.threads[j]? = some (task', .inside body')) : j = i := by
  obtain ⟨o, ho, hi⟩ := h.holder i task body found
  obtain ⟨o', ho', hj⟩ := h.holder j task' body' found'
  obtain rfl := Option.some.inj (ho.symm.trans ho')
  exact hj.symm.trans hi

/-- What the end of a transaction leaves of the threads. -/
theorem Sound.ends {s₀ : σ} (h : srv.Sound s₀ c) {i : ℕ} {task : τ} {r : Except ε α}
    (found : c.threads[i]? = some (task, .inside (.done r))) {db : σ} {undone : List ℕ}
    (hdb : db = srv.replay s₀ (c.log.filter fun e => decide (e.1 ∉ undone)))
    (hundone : ∀ j ∈ undone, j ∈ c.undone ∨ j = i ∧ ∃ e, r = .error e) :
    srv.Sound s₀ { c with
      db, undone, opened := none, threads := c.threads.set i (task, .alone (.done r)) } where
  db := hdb
  saved o ho := by cases ho
  holder j task' body hj := by
    rcases getElem?_set hj with ⟨-, hnew⟩ | ⟨hne, hj⟩
    · cases (Prod.mk.inj hnew).2
    · exact absurd (h.only_inside found hj) hne
  fresh j task' body hj := by
    rcases getElem?_set hj with ⟨-, hnew⟩ | ⟨-, hj⟩
    · cases (Prod.mk.inj hnew).2
    · exact h.fresh j task' body hj
  known e he := by
    change e.1 < (c.threads.set i _).length
    rw [List.length_set]
    exact h.known e he
  ended j hj := by
    have hi : i < c.threads.length := (List.getElem?_eq_some_iff.mp found).1
    by_cases hij : i = j
    · subst hij
      rcases hundone i hj with hold | ⟨-, e, rfl⟩
      · exact absurd hold (h.notMem_undone found fun e he => by cases he)
      · exact ⟨task, e, List.getElem?_set_self hi⟩
    · rcases hundone j hj with hold | ⟨hnew, -⟩
      · change ∃ task e, (c.threads.set i _)[j]? = some (task, .alone (.done (.error e)))
        rw [List.getElem?_set_ne hij]
        exact h.ended j hold
      · exact absurd hnew.symm hij
  asks j task' found' hj := by
    rcases getElem?_set hj with ⟨-, hnew⟩ | ⟨-, hj⟩
    · rw [(Prod.mk.inj hnew).2]
      exact .done r
    · exact h.asks j task' found' hj

/-- **A turn keeps the connection sound**, unless it rolls back what another thread wrote. -/
theorem sound_act (hoperation : ∀ task, (srv.operation task).thread.prog.Asks srv.Plain)
    {s₀ : σ} (c : Connection τ Op Ans ε α σ) (turn : Turn τ κ) (hunmixed : Unmixed c turn)
    (h : srv.Sound s₀ c) : srv.Sound s₀ (srv.act c turn) := by
  have hacts := act_cases srv c turn
  generalize srv.act c turn = c' at hacts
  cases hacts with
  | idle => exact h
  | start task =>
    have hnew : ∀ j found, (c.threads ++ [(task, (srv.operation task).thread)])[j]? = some found →
        c.threads[j]? = some found ∨
          j = c.threads.length ∧ found = (task, (srv.operation task).thread) := by
      intro j found hj
      rcases Nat.lt_or_ge j c.threads.length with hlt | hge
      · rw [List.getElem?_append_left hlt] at hj
        exact Or.inl hj
      · rw [List.getElem?_append_right hge] at hj
        obtain ⟨hlt, heq⟩ := List.getElem?_eq_some_iff.mp hj
        rw [List.length_singleton] at hlt
        exact Or.inr ⟨by omega, by simpa using heq.symm⟩
    exact
      { db := h.db
        saved := h.saved
        holder := by
          intro j task' body hj
          rcases hnew j _ hj with hj | ⟨-, heq⟩
          · exact h.holder j task' body hj
          · have hthread := (Prod.mk.inj heq).2
            cases hop : srv.operation task <;> rw [hop] at hthread <;> cases hthread
        fresh := by
          intro j task' body hj e he
          rcases hnew j _ hj with hj | ⟨rfl, -⟩
          · exact h.fresh j task' body hj e he
          · exact Nat.ne_of_lt (h.known e he)
        known := by
          intro e he
          have hlt := h.known e he
          simp only [List.length_append, List.length_singleton]
          omega
        ended := by
          intro j hj
          obtain ⟨task', e, hended⟩ := h.ended j hj
          have hlt := (List.getElem?_eq_some_iff.mp hended).1
          exact ⟨task', e, (List.getElem?_append_left hlt).trans hended⟩
        asks := by
          intro j task' thread hj
          rcases hnew j _ hj with hj | ⟨-, heq⟩
          · exact h.asks j task' thread hj
          · rw [(Prod.mk.inj heq).2]
            exact hoperation task }
  | @alone i drawn task op next found =>
    obtain - | ⟨hplain, hnext⟩ := h.asks i task _ found
    exact h.after found (h.notMem_undone found fun e he => by cases he) hplain (hnext _)
      (fun body he => by cases he) (fun body he => by cases he)
  | @inside i drawn task op next found =>
    obtain - | ⟨hplain, hnext⟩ := h.asks i task _ found
    exact h.after found (h.notMem_undone found fun e he => by cases he) hplain (hnext _)
      (fun body he => by cases he) (fun body he => ⟨_, rfl⟩)
  | begun drawn found free => exact h.begun found free
  | committed drawn found => exact h.ends found h.db fun j hj => Or.inl hj
  | @rolledBack i drawn task e found =>
    obtain ⟨o, ho, rfl⟩ := h.holder i task _ found
    have hclean : o.mixed = false := by
      have hrolls : c.rollsBack o.holder = true := by rw [Connection.rollsBack, found]
      have hany := hunmixed hrolls
      rwa [ho] at hany
    have hsaved : (c.opened.map Opened.saved).getD c.db = o.saved := by rw [ho]; rfl
    refine h.ends found (hsaved.trans (h.saved o ho hclean)) fun j hj => ?_
    rcases List.mem_cons.mp hj with rfl | hj
    · exact Or.inr ⟨rfl, e, rfl⟩
    · exact Or.inl hj

/-- **Along every unmixed run the connection is sound.** -/
theorem sound_run (hoperation : ∀ task, (srv.operation task).thread.prog.Asks srv.Plain) (s₀ : σ)
    {turns : List (Turn τ κ)} (h : Runs.Along srv.act Unmixed (Connection.new s₀) turns) :
    srv.Sound s₀ (Runs.final srv.act (Connection.new s₀) turns) :=
  h.invariant (sound_new srv s₀) (sound_act hoperation)

/-- **What returned is kept**: every statement it made. -/
theorem Sound.returned_kept {s₀ : σ} (h : srv.Sound s₀ c) {i : ℕ} (hi : c.returned i = true)
    {e : ℕ × Op} (he : e ∈ c.log) (hmade : e.1 = i) : e ∈ c.kept := by
  have hundone : i ∉ c.undone := by
    unfold Connection.returned at hi
    split at hi
    · next found => exact h.notMem_undone found fun e he => by cases he
    · cases hi
  rw [← hmade] at hundone
  exact List.mem_filter.mpr ⟨he, by simpa using hundone⟩

end Server

end Connections
