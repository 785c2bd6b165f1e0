import AiSaas.Lib.Interrupts

/-!
# Rely and guarantee

Programs that act on what they have read of a shared state.  What was read is an earlier
state, and other processes may have stepped since; a program relies on an invariant of the
states and on a relation that every step keeps, and guarantees what its own steps do.

## Main definitions

* `Rely` — which answers show the state, what every state meets, and what every step keeps.
* `Rely.Seen` — the states that were read.
* `Rely.Guarantees`, `Prog.Sound` — operations and programs that keep a guarantee.
* `Rely.Valid` — the guarantees of all the processes give what each of them relies on.

## Main results

* `Prog.Sound.bind`, `Prog.sound_perform_bind` — the rules for programs.
* `Rely.Valid.invariant` — every state of a run meets the invariant.
* `Rely.Valid.rel` — what the guarantees of the processes that step have in common.
-/

namespace Processes

variable {Op : Type} {Ans : Op → Type} {ε α β τ σ κ : Type}

/-- What programs rely on. -/
structure Rely (Op : Type) (Ans : Op → Type) (σ : Type) where
  /-- The state that an answer shows, if it does. -/
  shows : (op : Op) → Ans op → Option σ
  holds : σ → Prop
  lasts : σ → σ → Prop

namespace Rely

variable (rely : Rely Op Ans σ)

/-- A state that was read. -/
def Seen (past : List (Entry Op Ans ε)) (s : σ) : Prop :=
  ∃ op a, (⟨op, .ok a⟩ : Entry Op Ans ε) ∈ past ∧ rely.shows op a = some s

/-- An operation whose step is as guaranteed, in every state that is to be relied on. -/
def Guarantees (exec : κ → (op : Op) → σ → Except ε (Ans op) × σ) (G : σ → σ → Prop)
    (past : List (Entry Op Ans ε)) (op : Op) : Prop :=
  ∀ d s, rely.holds s → (∀ s₀, rely.Seen past s₀ → rely.holds s₀ ∧ rely.lasts s₀ s) →
    G s (exec d op s).2

variable {rely} {past past' : List (Entry Op Ans ε)}

theorem Seen.mono {s : σ} (h : rely.Seen past s) (hsub : past ⊆ past') : rely.Seen past' s := by
  obtain ⟨op, a, hmem, hshows⟩ := h
  exact ⟨op, a, hsub hmem, hshows⟩

theorem Seen.cons {s : σ} {e : Entry Op Ans ε} (h : rely.Seen past s) : rely.Seen (e :: past) s :=
  h.mono (List.subset_cons_self _ _)

theorem seen_head {op : Op} {a : Ans op} {s : σ} (h : rely.shows op a = some s) :
    rely.Seen ((⟨op, .ok a⟩ : Entry Op Ans ε) :: past) s := ⟨op, a, List.mem_cons_self, h⟩

end Rely

namespace Prog

variable (rely : Rely Op Ans σ) (exec : κ → (op : Op) → σ → Except ε (Ans op) × σ)
  (G : σ → σ → Prop)

/-- A program all of whose steps are as guaranteed. -/
def Sound (past : List (Entry Op Ans ε)) (prog : Prog Op Ans ε α) : Prop :=
  prog.Trail (rely.Guarantees exec G) (fun _ _ => True) past

variable {rely exec G} {past past' : List (Entry Op Ans ε)} {prog : Prog Op Ans ε α}
  {first : Prog Op Ans ε β} {next : β → Prog Op Ans ε α}

theorem sound_done (r : Except ε α) : (done r : Prog Op Ans ε α).Sound rely exec G past := trivial

/-- A program that has read more. -/
theorem Sound.more (h : prog.Sound rely exec G past) (hsub : past ⊆ past') :
    prog.Sound rely exec G past' := by
  induction prog generalizing past past' with
  | done r => exact sound_done r
  | call op next ih =>
    refine ⟨fun d s hs hseen => h.1 d s hs fun s₀ hs₀ => hseen s₀ (hs₀.mono hsub), ?_⟩
    intro r
    exact ih r (h.2 r) (List.cons_subset_cons _ hsub)

theorem Sound.mono {G' : σ → σ → Prop} (h : prog.Sound rely exec G past)
    (hG : ∀ s s', G s s' → G' s s') : prog.Sound rely exec G' past :=
  Trail.mono h (fun _ _ hop d s hs hseen => hG s _ (hop d s hs hseen)) fun _ _ hr => hr

/-- **A sequence**: the second program may act on what the first has read. -/
theorem Sound.bind (h : first.Sound rely exec G past)
    (hnext : ∀ past' b, past ⊆ past' → (next b).Sound rely exec G past') :
    (first >>= next).Sound rely exec G past := by
  change (first.bind next).Sound rely exec G past
  induction first generalizing past with
  | done r =>
    cases r with
    | ok b => exact hnext past b (List.Subset.refl past)
    | error e => exact sound_done _
  | call op k ih =>
    refine ⟨h.1, fun r => ih r (h.2 r) fun past' b hsub => hnext past' b ?_⟩
    exact List.Subset.trans (List.subset_cons_self _ _) hsub

theorem Sound.attempt (h : prog.Sound rely exec G past) : prog.attempt.Sound rely exec G past :=
  Trail.attempt h fun _ _ _ => trivial

theorem Sound.ite {c : Prop} [Decidable c] {other : Prog Op Ans ε α}
    (hpos : c → prog.Sound rely exec G past) (hneg : ¬ c → other.Sound rely exec G past) :
    (if c then prog else other).Sound rely exec G past := Trail.ite hpos hneg

theorem sound_done_bind {x : Except ε β}
    (hok : ∀ b, x = .ok b → (next b).Sound rely exec G past) :
    ((done x : Prog Op Ans ε β) >>= next).Sound rely exec G past :=
  trail_done_bind (fun _ _ => trivial) hok

theorem sound_perform {op : Op} (h : rely.Guarantees exec G past op) :
    (perform op : Prog Op Ans ε (Ans op)).Sound rely exec G past := ⟨h, fun _ => trivial⟩

/-- One operation, then the rest, which may act on its answer. -/
theorem sound_perform_bind {op : Op} {next : Ans op → Prog Op Ans ε α}
    (h : rely.Guarantees exec G past op)
    (hnext : ∀ a, (next a).Sound rely exec G (⟨op, .ok a⟩ :: past)) :
    (perform op >>= next).Sound rely exec G past :=
  trail_perform_bind.mpr ⟨h, fun _ => trivial, hnext⟩

end Prog

namespace Rely

/-- The guarantees of the processes give what they rely on. -/
structure Valid (rely : Rely Op Ans σ) (sys : System τ Op Ans ε α σ κ) (G : τ → σ → σ → Prop) :
    Prop where
  program : ∀ task, (sys.program task).Sound rely sys.exec (G task) []
  shown : ∀ {d op s a s₀}, (sys.exec d op s).1 = .ok a → rely.shows op a = some s₀ → s₀ = s
  holds : ∀ {task s s'}, rely.holds s → G task s s' → rely.holds s'
  lasts : ∀ {task s s'}, rely.holds s → G task s s' → rely.lasts s s'
  trans : ∀ {s s' s''}, rely.lasts s s' → rely.lasts s' s'' → rely.lasts s s''

variable {rely : Rely Op Ans σ} {sys : System τ Op Ans ε α σ κ} {G : τ → σ → σ → Prop} {s : σ}

namespace Valid

/-- The state that an answer shows is one to be relied on. -/
def Shown (rely : Rely Op Ans σ) (s : σ) (e : Entry Op Ans ε) : Prop :=
  ∀ a, e.answer = .ok a → ∀ s₀, rely.shows e.op a = some s₀ → rely.holds s₀ ∧ rely.lasts s₀ s

/-- What the answers of a pool show was read by the processes. -/
theorem of_seen {pool : Pool τ Op Ans ε α σ} (h : ∀ e ∈ pool.log, Shown rely pool.state e.2) {i : ℕ}
    {s₀ : σ} (hseen : rely.Seen (pool.past i) s₀) : rely.holds s₀ ∧ rely.lasts s₀ pool.state := by
  obtain ⟨op, a, hmem, hshows⟩ := hseen
  exact h _ (Pool.mem_past.mp hmem) a rfl s₀ hshows

theorem facts (h : rely.Valid sys G) (h0 : rely.holds s) (actions : List (Action τ κ)) :
    rely.holds (Runs.final sys.act (Pool.init s) actions).state ∧
      ∀ e ∈ (Runs.final sys.act (Pool.init s) actions).log,
        Shown rely (Runs.final sys.act (Pool.init s) actions).state e.2 := by
  refine System.facts_run (Q := fun _ _ _ => True) h.program ?_ h0 actions
  intro pool i drawn task op hs hlog hop
  have hstep : G task pool.state (sys.exec drawn op pool.state).2 :=
    hop drawn pool.state hs fun s₀ hseen => of_seen hlog hseen
  have hlasts := h.lasts hs hstep
  refine ⟨h.holds hs hstep, ?_, ?_⟩
  · -- what the answer shows is the state it was given in
    intro a hanswer s₀ hshows
    obtain rfl := h.shown hanswer hshows
    exact ⟨hs, hlasts⟩
  · intro e he a hanswer s₀ hshows
    obtain ⟨hs₀, hold⟩ := he a hanswer s₀ hshows
    exact ⟨hs₀, h.trans hold hlasts⟩

/-- **The invariant** holds in every state of a run. -/
theorem invariant (h : rely.Valid sys G) (h0 : rely.holds s) (actions : List (Action τ κ)) :
    rely.holds (Runs.final sys.act (Pool.init s) actions).state := (h.facts h0 actions).1

/-- **What the processes that step have in common**: a relation that the guarantee of each of
them gives relates the states before and after all of their steps. -/
theorem rel (h : rely.Valid sys G) (h0 : rely.holds s) {R : σ → σ → Prop} (hrefl : ∀ s, R s s)
    (htrans : ∀ {s s' s''}, R s s' → R s' s'' → R s s'') (cond : τ → Prop)
    (hR : ∀ {task s s'}, cond task → rely.holds s → G task s s' → R s s')
    {before rest : List (Action τ κ)}
    (hcond : ∀ i d, .step i d ∈ rest → ∀ task,
      (Runs.final sys.act (Pool.init s) (before ++ rest)).task i = some task → cond task) :
    R (Runs.final sys.act (Pool.init s) before).state
      (Runs.final sys.act (Pool.init s) (before ++ rest)).state := by
  induction rest using List.reverseRecOn with
  | nil =>
    rw [List.append_nil]
    exact hrefl _
  | append_singleton rest a ih =>
    rw [← List.append_assoc] at hcond ⊢
    have htask : ∀ {i task},
        (Runs.final sys.act (Pool.init s) (before ++ rest)).task i = some task →
        (Runs.final sys.act (Pool.init s) (before ++ rest ++ [a])).task i = some task :=
      fun ht => System.task_of_prefix (List.prefix_append _ _) ht
    refine htrans (ih fun i d hmem task ht =>
      hcond i d (List.mem_append_left _ hmem) task (htask ht)) ?_
    -- the last action is a step of a process of the kind, or leaves the state alone
    obtain ⟨hs, hlog⟩ := h.facts h0 (before ++ rest)
    have htraced := System.traced_run (Q := fun _ _ _ => True) h.program s (before ++ rest)
    have hlast : Runs.final sys.act (Pool.init s) (before ++ rest ++ [a])
        = sys.act (Runs.final sys.act (Pool.init s) (before ++ rest)) a := Runs.final_append ..
    rw [hlast] at htask hcond ⊢
    generalize Runs.final sys.act (Pool.init s) (before ++ rest) = pool at *
    have hacts := System.act_cases sys pool a
    generalize sys.act pool a = pool' at *
    cases hacts with
    | start | stop | idle => exact hrefl _
    | @step i drawn task op next found =>
      have ht : pool.task i = some task := Pool.task_of_found found
      have hmem : Action.step i drawn ∈ rest ++ [Action.step i drawn] :=
        List.mem_append_right _ List.mem_cons_self
      refine hR (hcond i drawn hmem task (htask ht)) hs ?_
      exact (htraced.1 i _ found).1 drawn pool.state hs fun s₀ hseen => of_seen hlog hseen

end Valid

end Rely

end Processes
