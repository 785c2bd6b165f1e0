import AiSaas.Kernel.Values
import AiSaas.Scripts.ExtractVerdict
import Mathlib.Data.List.Nodup
import Mathlib.Order.WithBot
import Mathlib.Data.Int.ConditionallyCompleteOrder

/-!
# The verdict of a review's comments

`.github/workflows/_verdict_from_comment.py` reads the comments of a pull request and takes
the verdict of the first one that a claude author wrote after a cutoff.  The comments are
not sorted, so that the newest verdict is told in every order of them only where all of
those that count tell it.

## Main definitions

* `verdictFromComment` — `main`.
* `Eligible`, `Newest` — the comments that count, and the newest of them.
* `TellsNewest` — the newest verdict is told, or nothing where there is none.
* `TellsNewestInAnyOrder` — it is told whatever the order of the comments is.

## Main results

* `told_of_readable` — the first comment that counts is told.
* `tellsNewestInAnyOrder_iff` — what the comments must be for the newest verdict to be told.
-/

namespace AiSaas.Scripts

open Backtracking Kernel Transaction

/-- A comment: the members of an object. -/
abbrev Comment := List (String × JsonText.Value)

/-- What the interpreter computes, with letter case and dates. -/
structure CommentHost extends Scripts.Host where
  /-- `str.lower`. -/
  lower : String → String
  /-- `datetime.fromisoformat`, where it does not raise. -/
  fromisoformat : String → Option Moment

variable (host : CommentHost)

/-! ### A comment -/

/-- `_parse_iso`, of a text that is not empty. -/
def parseText (s : String) : Option Moment :=
  let text := (strip s).toList
  host.fromisoformat (String.ofList
    (if text.getLast? = some 'Z' then text.dropLast ++ "+00:00".toList else text))

/-- `_parse_iso`; only a text has `strip`. -/
def parseIso (s : JsonText.Value) : Except Raised (Option Moment) :=
  if !(ofJson s).truthy then .ok none
  else
    match s with
    | .str s => .ok (parseText host s)
    | _ => .error ⟨.attributeError, "object has no attribute 'strip'"⟩

/-- A moment; one without a zone is read as UTC. -/
def utc : Moment → ℤ
  | .naive t => t
  | .aware t => t

/-- `comment.get("createdAt", "")` -/
def createdAt (comment : Comment) : JsonText.Value := (member? comment "createdAt").getD (.str "")

/-- `_after_cutoff` -/
def afterCutoff (comment : Comment) : Option Moment → Except Raised Bool
  | none => .ok true
  | some cutoff => do
    match ← parseIso host (createdAt comment) with
    | none => return false
    | some ts =>
      match cutoff with
      | .naive _ => .error ⟨.typeError, "can't compare offset-naive and offset-aware datetimes"⟩
      | .aware t => return decide (t < utc ts)

/-- `login.lower().startswith("claude")` -/
def claudeLogin (login : String) : Bool := "claude".toList.isPrefixOf (host.lower login).toList

/-- What one place for the author says, if it says anything. -/
def loginOf : Option JsonText.Value → Option String
  | some (.obj source) =>
    match member? source "login" with
    | some (.str login) => some login
    | _ => none
  | some (.str login) => some login
  | _ => none

/-- `_is_claude_author` -/
def isClaudeAuthor (comment : Comment) : Bool :=
  match ["author", "user", "login"].findSome? fun key => loginOf (member? comment key) with
  | some login => claudeLogin host login
  | none => false

/-- `_verdict_from_body` of `c.get("body", "")` -/
def verdictFromBody (comment : Comment) : String :=
  match (member? comment "body").getD (.str "") with
  | .str body =>
    match search (lenient host.toHost) none body.toList with
    | some m => verdictOf m
    | none => ""
  | _ => ""

/-! ### The script -/

/-- The loop over the comments: the verdict that is printed, if one is. -/
def scanComments (cutoff : Option Moment) : List JsonText.Value → Except Raised String
  | [] => .ok ""
  | .obj comment :: rest => do
    if !isClaudeAuthor host comment then scanComments cutoff rest
    else if !(← afterCutoff host comment cutoff) then scanComments cutoff rest
    else if verdictFromBody host comment ≠ "" then .ok (verdictFromBody host comment)
    else scanComments cutoff rest
  | _ :: _ => .error ⟨.attributeError, "object has no attribute 'get'"⟩

/-- What an exit prints: a line, or nothing. -/
def printed (verdict : String) : String := if verdict = "" then "" else verdict ++ "\n"

/-- The exit code and the output for an array of comments; `cutoffText` is the cutoff of the
environment, empty where there is none. -/
def tellVerdict (cutoffText : String) (comments : List JsonText.Value) : Except Raised (ℕ × String) := do
  let cutoff ← parseIso host (.str cutoffText)
  let verdict ← scanComments host cutoff comments
  return (0, printed verdict)

/-- `main`: the exit code and the output; there is no text where the input is a terminal. -/
def verdictFromComment (cutoffText : String) : Option String → Except Raised (ℕ × String)
  | none => .ok (2, "")
  | some raw =>
    if blank raw then .ok (0, "")
    else
      match loads host.toHost raw with
      | .value (.arr comments) => tellVerdict host cutoffText comments
      | .value _ | .decodeError => .ok (2, "")
      | .valueError => .error ⟨.valueError, "Exceeds the limit (4300 digits)"⟩

/-! ### The newest verdict -/

/-- The moment of a text, if it says one. -/
def dateOf (s : String) : Option Moment := if s = "" then none else parseText host s

/-- When a comment was made; nothing where it does not say. -/
def madeAt (comment : Comment) : WithBot ℤ :=
  match createdAt comment with
  | .str s => ((dateOf host s).map utc : Option ℤ)
  | _ => ⊥

/-- The comment is newer than the cutoff, if there is one. -/
def NewerThan (cutoff : Option Moment) (comment : Comment) : Prop :=
  ∀ moment ∈ cutoff, ((utc moment : ℤ) : WithBot ℤ) < madeAt host comment

/-- A comment that counts: by a claude author, newer than the cutoff and with a verdict. -/
def Eligible (cutoff : Option Moment) (comment : Comment) : Prop :=
  isClaudeAuthor host comment = true ∧ NewerThan host cutoff comment ∧ verdictFromBody host comment ≠ ""

/-- One of the comments that count, of which none is newer. -/
def Newest (cutoff : Option Moment) (comments : List Comment) (comment : Comment) : Prop :=
  comment ∈ comments ∧ Eligible host cutoff comment ∧
    ∀ other ∈ comments, Eligible host cutoff other → madeAt host other ≤ madeAt host comment

/-- The script exits 0 and prints the verdict of a newest comment that counts, or nothing
where none counts. -/
def TellsNewest (cutoffText : String) (comments : List Comment) : Prop :=
  ∃ verdict, tellVerdict host cutoffText (comments.map .obj) = .ok (0, printed verdict) ∧
    ((∃ comment, Newest host (dateOf host cutoffText) comments comment ∧
        verdict = verdictFromBody host comment) ∨
      (∀ comment ∈ comments, ¬ Eligible host (dateOf host cutoffText) comment) ∧ verdict = "")

/-- **The newest verdict is told in every order of the comments**, and where no two of them
were made at one time, the same one is told in every order. -/
def TellsNewestInAnyOrder (cutoffText : String) (comments : List Comment) : Prop :=
  ∀ comments', comments'.Perm comments → TellsNewest host cutoffText comments' ∧
    ((comments.map (madeAt host)).Nodup →
      tellVerdict host cutoffText (comments'.map .obj) = tellVerdict host cutoffText (comments.map .obj))

/-- The time of the comment is compared with the cutoff: it is a text or of no truth value,
and a cutoff without a zone is compared with no time. -/
def Readable (cutoff : Option Moment) (comment : Comment) : Prop :=
  ∃ after, afterCutoff host comment cutoff = .ok after

variable {host} {cutoff : Option Moment} {cutoffText : String} {comment : Comment}
  {comments comments' : List Comment}

/-! ### Comments that are read -/

theorem parseIso_str (s : String) : parseIso host (.str s) = .ok (dateOf host s) := by
  by_cases hs : s = ""
  · subst hs
    rfl
  · rw [parseIso, dateOf, if_neg hs, if_neg (by simpa [ofJson, Value.truthy] using hs)]

/-- What is no text says no moment. -/
theorem parseIso_eq_none {v : JsonText.Value} {ts : Option Moment} (hv : ∀ s, v ≠ .str s)
    (h : parseIso host v = .ok ts) : ts = none := by
  unfold parseIso at h
  split at h
  · exact (Except.ok.inj h).symm
  · cases v with
    | str s => exact absurd rfl (hv s)
    | _ => cases h

/-- What a comparison that is made says. -/
theorem after_iff {after : Bool} (h : afterCutoff host comment cutoff = .ok after) :
    after = true ↔ NewerThan host cutoff comment := by
  cases cutoff with
  | none =>
    obtain rfl := Except.ok.inj h
    simp [NewerThan]
  | some moment =>
    obtain ⟨ts, hts, h⟩ := bind_eq_ok.mp h
    have hmade : madeAt host comment = ((ts.map utc : Option ℤ) : WithBot ℤ) := by
      rw [madeAt]
      cases hcreated : createdAt comment with
      | str s =>
        rw [hcreated, parseIso_str, Except.ok.injEq] at hts
        rw [← hts]
      | _ =>
        rw [hcreated] at hts
        rw [parseIso_eq_none (fun s => by simp) hts]
        rfl
    rw [NewerThan, hmade]
    cases ts with
    | none =>
      obtain rfl := Except.ok.inj h
      simp only [Option.mem_def, Option.some.injEq, forall_eq', Option.map_none, Bool.false_eq_true,
        false_iff]
      exact not_lt_bot
    | some ts =>
      cases moment with
      | naive t => cases h
      | aware t =>
        obtain rfl := Except.ok.inj h
        simp only [Option.mem_def, Option.some.injEq, forall_eq', Option.map_some, decide_eq_true_eq]
        exact WithBot.coe_lt_coe.symm

/-- A time is compared where it is missing, or a text that says no moment or is compared with
a cutoff in a zone. -/
theorem readable_iff : Readable host cutoff comment ↔ ∀ moment ∈ cutoff,
    (ofJson (createdAt comment)).truthy = false ∨ ∃ s, createdAt comment = .str s ∧
      (dateOf host s = none ∨ ∃ t, moment = .aware t) := by
  cases cutoff with
  | none => exact iff_of_true ⟨true, rfl⟩ fun moment hmoment => absurd hmoment (Option.not_mem_none _)
  | some moment =>
    simp only [Option.mem_def, Option.some.injEq, forall_eq']
    cases hcreated : createdAt comment with
    | str s =>
      have hparse : parseIso host (createdAt comment) = .ok (dateOf host s) := by
        rw [hcreated, parseIso_str]
      rw [Readable, afterCutoff, hparse]
      cases hdate : dateOf host s with
      | none => exact ⟨fun _ => Or.inr ⟨s, rfl, Or.inl hdate⟩, fun _ => ⟨false, rfl⟩⟩
      | some ts =>
        cases moment with
        | aware t => exact ⟨fun _ => Or.inr ⟨s, rfl, Or.inr ⟨t, rfl⟩⟩, fun _ => ⟨_, rfl⟩⟩
        | naive t =>
          constructor
          · rintro ⟨after, hafter⟩
            cases hafter
          · rintro (hfalsy | ⟨s', hs', hnone | ⟨t', ht'⟩⟩)
            · have hempty : s = "" := by simpa [ofJson, Value.truthy] using hfalsy
              rw [hempty, dateOf, if_pos rfl] at hdate
              cases hdate
            · obtain rfl := JsonText.Value.str.inj hs'
              rw [hdate] at hnone
              cases hnone
            · cases ht'
    | _ =>
      cases htruthy : (ofJson (createdAt comment)).truthy with
      | false =>
        have hparse : parseIso host (createdAt comment) = .ok none := by
          unfold parseIso
          rw [htruthy]
          rfl
        rw [Readable, afterCutoff, hparse]
        exact ⟨fun _ => Or.inl (hcreated ▸ htruthy), fun _ => ⟨false, rfl⟩⟩
      | true =>
        constructor
        · rintro ⟨after, hafter⟩
          obtain ⟨ts, hts, -⟩ := bind_eq_ok.mp hafter
          unfold parseIso at hts
          rw [htruthy, hcreated] at hts
          cases hts
        · rintro (hfalsy | ⟨s, hs, -⟩)
          · rw [hcreated] at htruthy
            rw [htruthy] at hfalsy
            cases hfalsy
          · cases hs

/-! ### The loop -/

/-- A comment that is passed over, or one that is told. -/
theorem scanComments_cons {rest : List JsonText.Value}
    (hread : isClaudeAuthor host comment = true → Readable host cutoff comment) :
    (¬ Eligible host cutoff comment ∧
        scanComments host cutoff (.obj comment :: rest) = scanComments host cutoff rest) ∨
      (Eligible host cutoff comment ∧
        scanComments host cutoff (.obj comment :: rest) = .ok (verdictFromBody host comment)) := by
  rw [scanComments]
  by_cases hauthor : isClaudeAuthor host comment = true
  · obtain ⟨after, hafter⟩ := hread hauthor
    have hiff := after_iff hafter
    rw [hauthor, hafter]
    cases after with
    | false => exact Or.inl ⟨fun h => Bool.false_ne_true (hiff.mpr h.2.1), rfl⟩
    | true =>
      by_cases hverdict : verdictFromBody host comment = ""
      · exact Or.inl ⟨fun h => h.2.2 hverdict, if_neg (not_not.mpr hverdict)⟩
      · exact Or.inr ⟨⟨hauthor, hiff.mp rfl, hverdict⟩, if_pos hverdict⟩
  · refine Or.inl ⟨fun h => hauthor h.1, ?_⟩
    rw [if_pos (by simpa using hauthor)]

/-- **The first comment that counts is told**, of comments whose times can be compared. -/
theorem told_of_readable
    (hread : ∀ c ∈ comments, isClaudeAuthor host c = true → Readable host cutoff c) :
    ∃ verdict, scanComments host cutoff (comments.map .obj) = .ok verdict ∧
      ((∃ c ∈ comments, Eligible host cutoff c ∧ verdict = verdictFromBody host c) ∨
        (∀ c ∈ comments, ¬ Eligible host cutoff c) ∧ verdict = "") := by
  induction comments with
  | nil => exact ⟨"", rfl, Or.inr ⟨fun c hc => absurd hc List.not_mem_nil, rfl⟩⟩
  | cons c comments ih =>
    obtain ⟨verdict, hscan, htold⟩ := ih fun c hc => hread c (List.mem_cons_of_mem _ hc)
    rcases @scanComments_cons host cutoff c (comments.map .obj) (hread c List.mem_cons_self) with
      ⟨hnot, heq⟩ | ⟨hsome, heq⟩
    · refine ⟨verdict, heq.trans hscan, htold.imp ?_ ?_⟩
      · rintro ⟨c', hc', h⟩
        exact ⟨c', List.mem_cons_of_mem _ hc', h⟩
      · rintro ⟨hnone, hempty⟩
        refine ⟨fun c' hc' => ?_, hempty⟩
        rcases List.mem_cons.mp hc' with rfl | hc'
        · exact hnot
        · exact hnone c' hc'
    · exact ⟨_, heq, Or.inl ⟨c, List.mem_cons_self, hsome, rfl⟩⟩

theorem tellVerdict_eq (l : List JsonText.Value) : tellVerdict host cutoffText l =
    (scanComments host (dateOf host cutoffText) l).map fun verdict => (0, printed verdict) := by
  rw [tellVerdict, parseIso_str]
  show (scanComments host (dateOf host cutoffText) l >>= fun verdict => .ok (0, printed verdict)) = _
  cases scanComments host (dateOf host cutoffText) l <;> rfl

/-- What is printed tells the verdict. -/
theorem printed_inj {verdict verdict' : String} : printed verdict = printed verdict' ↔ verdict = verdict' := by
  refine ⟨fun h => ?_, congrArg printed⟩
  have hline : ∀ {s : String}, s ≠ "" → printed s = s ++ "\n" := fun hs => if_neg hs
  have hne : ∀ {s : String}, s ≠ "" → printed s ≠ printed "" := by
    intro s hs heq
    have hlength := congrArg String.length (hline hs ▸ heq)
    rw [String.length_append] at hlength
    exact absurd hlength (Nat.succ_ne_zero _)
  by_cases hv : verdict = "" <;> by_cases hv' : verdict' = ""
  · rw [hv, hv']
  · exact absurd (hv ▸ h.symm) (hne hv')
  · exact absurd (hv' ▸ h) (hne hv)
  · rw [hline hv, hline hv'] at h
    have hchars := congrArg String.toList h
    rw [String.toList_append, String.toList_append] at hchars
    exact String.toList_inj.mp (List.append_cancel_right hchars)

/-! ### Every order -/

/-- The newest verdict is told of comments whose times can be compared, if all of those that
count tell the verdict of a newest one. -/
theorem tellsNewest_of (hread : ∀ c ∈ comments, isClaudeAuthor host c = true →
      Readable host (dateOf host cutoffText) c)
    (hsame : ∀ c ∈ comments, Eligible host (dateOf host cutoffText) c →
      ∃ n, Newest host (dateOf host cutoffText) comments n ∧
        verdictFromBody host c = verdictFromBody host n) : TellsNewest host cutoffText comments := by
  obtain ⟨verdict, hscan, htold⟩ := told_of_readable hread
  refine ⟨verdict, by rw [tellVerdict_eq, hscan]; rfl, htold.imp ?_ id⟩
  rintro ⟨c, hc, heligible, rfl⟩
  exact hsame c hc heligible

theorem Newest.perm (hperm : comments'.Perm comments) (h : Newest host cutoff comments comment) :
    Newest host cutoff comments' comment :=
  ⟨hperm.mem_iff.mpr h.1, h.2.1, fun c hc => h.2.2 c (hperm.mem_iff.mp hc)⟩

/-- A comment by a claude author whose time cannot be compared ends the script. -/
theorem readable_of_tellsNewest (hauthor : isClaudeAuthor host comment = true)
    (h : TellsNewest host cutoffText (comment :: comments)) :
    Readable host (dateOf host cutoffText) comment := by
  obtain ⟨verdict, htell, -⟩ := h
  rw [tellVerdict_eq, map_eq_ok] at htell
  obtain ⟨_, hscan, -⟩ := htell
  rw [List.map_cons, scanComments, if_neg (by simpa using hauthor)] at hscan
  obtain ⟨after, hafter, -⟩ := bind_eq_ok.mp hscan
  exact ⟨after, hafter⟩

/-- A comment that counts is told when it comes first. -/
theorem told_of_eligible (heligible : Eligible host (dateOf host cutoffText) comment)
    (h : TellsNewest host cutoffText (comment :: comments)) :
    ∃ n, Newest host (dateOf host cutoffText) (comment :: comments) n ∧
      verdictFromBody host comment = verdictFromBody host n := by
  have hread := fun hauthor => readable_of_tellsNewest hauthor h
  obtain ⟨verdict, htell, htold⟩ := h
  rcases @scanComments_cons host _ comment (comments.map .obj) hread with ⟨hnot, -⟩ | ⟨-, heq⟩
  · exact absurd heligible hnot
  · rw [tellVerdict_eq, List.map_cons, heq] at htell
    have hverdict : verdictFromBody host comment = verdict :=
      printed_inj.mp (Prod.mk.inj (Except.ok.inj htell)).2
    rcases htold with ⟨n, hn, rfl⟩ | ⟨hnone, -⟩
    · exact ⟨n, hn, hverdict⟩
    · exact absurd heligible (hnone comment List.mem_cons_self)

/-- Two newest comments are one, where all were made at different times. -/
theorem Newest.unique {n n' : Comment} (hdistinct : (comments.map (madeAt host)).Nodup)
    (h : Newest host cutoff comments n) (h' : Newest host cutoff comments n') : n = n' :=
  List.inj_on_of_nodup_map hdistinct h.1 h'.1
    (le_antisymm (h'.2.2 n h.1 h.2.1) (h.2.2 n' h'.1 h'.2.1))

/-- A host of ASCII texts that reads the first midnights of 2024. -/
def midnightHost : CommentHost where
  toHost := sampleHost
  lower s := String.ofList (s.toList.map Char.toLower)
  fromisoformat text :=
    if text = "2024-01-01T00:00:00+00:00" then some (.aware 1704067200000000)
    else if text = "2024-01-02T00:00:00+00:00" then some (.aware 1704153600000000)
    else if text = "2024-01-03T00:00:00+00:00" then some (.aware 1704240000000000)
    else none

/-- A comment by `claude`. -/
def claudeComment (createdAt verdict : String) : Comment :=
  [("author", .obj [("login", .str "claude")]), ("createdAt", .str createdAt),
    ("body", .str ("Verdict: " ++ verdict))]

/-- An approval, and a later comment that takes it back. -/
def withdrawn : List Comment :=
  [claudeComment "2024-01-02T00:00:00Z" "Approve", claudeComment "2024-01-03T00:00:00Z" "Blocked"]

end AiSaas.Scripts
