import AiSaas.Python
import Mathlib.Data.List.Infix

/-!
# Commands of the process sandbox

The sandbox runs the verification commands of a plan.  A command is allowed when its
words, joined again by single spaces, are an allowed command or go on from one; what is
run is the list of the words.  Quotes can put a space into a word, and then the two
views of a command differ.

* `shlexSplit` — words and quotes as a POSIX shell reads them.
* `commandAllowed` — the check of a command.
* `ProcessSandbox.test` — the run of a plan's commands.
* `programs_begin_iff` — what is run begins with an allowed command exactly when no
  quoting reaches into the words the check goes by.
-/

namespace AiSaas
namespace SandboxWorker

/-! ### `shlex.split` -/

/-- What an escape goes back to: a word, or a text in double quotes. -/
inductive EscapedIn where
  | word
  | quotes
deriving DecidableEq

/-- `self.state`: between words, in a word, in a quotation, after a backslash. -/
inductive LexState where
  | blank
  | word
  | quote (mark : Char)
  | escape (from' : EscapedIn)
deriving DecidableEq

def lexSpace (c : Char) : Bool := c == ' ' || c == '\t' || c == '\r' || c == '\n'

def quoteMark (c : Char) : Bool := c == '\x22' || c == '\x27'

/-- The reader: the word so far, and whether a part of it was quoted; a word that was
quoted counts even when it is empty. -/
def lex : LexState → List Char → Bool → List Char → Except String (List (List Char))
  | .blank, _, _, [] => .ok []
  | .blank, _, _, c :: cs =>
    if lexSpace c then lex .blank [] false cs
    else if c = '\\' then lex (.escape .word) [] false cs
    else if quoteMark c then lex (.quote c) [] false cs
    else lex .word [c] false cs
  | .quote _, _, _, [] => .error "No closing quotation"
  | .quote mark, token, _, c :: cs =>
    if c = mark then lex .word token true cs
    else if c = '\\' ∧ mark = '\x22' then lex (.escape .quotes) token true cs
    else lex (.quote mark) (token ++ [c]) true cs
  | .escape _, _, _, [] => .error "No escaped character"
  | .escape .word, token, quoted, c :: cs => lex .word (token ++ [c]) quoted cs
  | .escape .quotes, token, quoted, c :: cs =>
    -- in quotes a backslash escapes itself and the quotation mark alone
    if c = '\\' ∨ c = '\x22' then lex (.quote '\x22') (token ++ [c]) quoted cs
    else lex (.quote '\x22') (token ++ ['\\', c]) quoted cs
  | .word, token, quoted, [] => .ok (if token ≠ [] ∨ quoted then [token] else [])
  | .word, token, quoted, c :: cs =>
    if lexSpace c then
      (lex .blank [] false cs).map fun words => if token ≠ [] ∨ quoted then token :: words else words
    else if quoteMark c then lex (.quote c) token quoted cs
    else if c = '\\' then lex (.escape .word) token quoted cs
    else lex .word (token ++ [c]) quoted cs

/-- `shlex.split`. -/
def shlexSplit (command : String) : Except String (List (List Char)) :=
  lex .blank [] false command.toList

/-! ### The check -/

structure SandboxPolicy where
  allowedCommands : List String := ["python3 -m pytest", "python3 -m compileall"]
  networkEnabled : Bool := false
  maxCommands : ℕ := 8
  maxOutputBytes : ℕ := 32768

/-- `" ".join(words)`. -/
def joinWords (words : List (List Char)) : List Char := [' '].intercalate words

/-- `normalized == allowed or normalized.startswith(allowed + " ")`. -/
def matchesAllowed (normalized allowed : List Char) : Bool :=
  decide (normalized = allowed) || (allowed ++ [' ']).isPrefixOf normalized

def commandAllowed (command : String) (policy : SandboxPolicy) : Bool :=
  if command = "" || command.length > 512 ||
      command.toList.any fun c => [';', '&', '|', '>', '<', '\x60', '$', '\x00'].contains c then false
  else
    match shlexSplit command with
    | .error _ => false
    | .ok words => policy.allowedCommands.any fun allowed =>
        matchesAllowed (joinWords words) allowed.toList

/-! ### Running a plan -/

/-- What `subprocess.run` comes to. -/
inductive Completion where
  | completed (returncode : ℤ) (stdout stderr : String)
  | timeout (stdout stderr : String)
  | osError (message : String)

structure CommandRecord where
  command : String
  exitCode : ℤ
  stdout : String
  stderr : String
  timeout : Bool
  offline : Bool
deriving DecidableEq

/-- What the sandbox has of its workspace. -/
structure Workspace where
  root : String
  baseCommit : String
  sourceUnchanged : Except (String × String) Bool
  changedFiles : Option (List String)

structure ProcessSandbox where
  policy : SandboxPolicy
  workspace : Option Workspace

/-- The plan, with the commands of each step. -/
structure SandboxPlan where
  validReferences : Bool
  steps : List (List String)

structure SimulationResult where
  success : Bool
  detail : String
  workspacePath : Option String
  baseCommit : Option String
  changedFiles : List String
  commandResults : List CommandRecord
  errorCode : Option String
deriving DecidableEq

def cut (policy : SandboxPolicy) (text : String) : String :=
  String.ofList (text.toList.take policy.maxOutputBytes)

def recordOf (policy : SandboxPolicy) (command : String) : Completion → CommandRecord
  | .completed returncode stdout stderr =>
    ⟨command, returncode, cut policy stdout, cut policy stderr, false, !policy.networkEnabled⟩
  | .timeout stdout stderr =>
    ⟨command, 124, cut policy stdout, cut policy stderr, true, !policy.networkEnabled⟩
  | .osError message => ⟨command, 127, "", cut policy message, false, !policy.networkEnabled⟩

/-- The results so far with how the loop ended: a detail and a code, or none for all
commands passed; and the word lists that were run. -/
structure Verification where
  results : List CommandRecord
  failure : Option (String × String)
  runs : List (List (List Char))

/-- The loop over the commands; `run` is `subprocess.run`, told how many ran before. -/
def runCommands (policy : SandboxPolicy) (run : ℕ → List (List Char) → Completion) :
    List CommandRecord → List String → Verification
  | results, [] => ⟨results, none, []⟩
  | results, command :: commands =>
    if commandAllowed command policy then
      match shlexSplit command with
      | .error _ => ⟨results, some ("verification command cannot be parsed", "command_invalid"), []⟩
      | .ok argv =>
        let result := recordOf policy command (run results.length argv)
        if result.exitCode ≠ 0 then
          ⟨results ++ [result],
            some (s!"verification command failed: {command}", "verification_command_failed"), [argv]⟩
        else
          let rest := runCommands policy run (results ++ [result]) commands
          { rest with runs := argv :: rest.runs }
    else ⟨results,
      some (s!"verification command is not allowlisted: {command}", "command_not_allowlisted"), []⟩

/-- `ProcessSandbox.test`: the result, and the word lists passed to `subprocess.run`. -/
def ProcessSandbox.test (s : ProcessSandbox) (plan : SandboxPlan)
    (run : ℕ → List (List Char) → Completion) : SimulationResult × List (List (List Char)) :=
  match s.workspace with
  | none => (⟨false, "isolated workspace is not ready", none, none, [], [], some "workspace_missing"⟩, [])
  | some workspace =>
    match workspace.changedFiles with
    | none =>
      (⟨false, "isolated workspace is not ready", none, none, [], [], some "workspace_missing"⟩, [])
    | some changedFiles =>
      let stopped := fun (detail code : String) (results : List CommandRecord) =>
        (⟨false, detail, some workspace.root, some workspace.baseCommit, changedFiles, results,
          some code⟩ : SimulationResult)
      let commands := plan.steps.flatten
      match workspace.sourceUnchanged with
      | .error (code, detail) => (stopped s!"{code}: {detail}" code [], [])
      | .ok false =>
        (stopped "source checkout changed during isolated execution" "source_changed" [], [])
      | .ok true =>
        if !plan.validReferences || plan.steps.isEmpty then
          (⟨false, "plan has no valid executable evidence", none, none, [], [],
            some "invalid_evidence"⟩, [])
        else if commands.isEmpty then
          (stopped "process mode requires declared verification commands"
            "verification_commands_missing" [], [])
        else if commands.length > s.policy.maxCommands then
          (stopped "verification command budget exceeded" "verification_budget_exceeded" [], [])
        else
          let verification := runCommands s.policy run [] commands
          match verification.failure with
          | some (detail, code) => (stopped detail code verification.results, verification.runs)
          | none =>
            (⟨true, "bounded verification commands passed", some workspace.root,
              some workspace.baseCommit, changedFiles, verification.results, none⟩, verification.runs)

/-! ### What is run -/

/-- The words of an allowed command, between its spaces. -/
def wordList (allowed : String) : List (List Char) := allowed.toList.splitOn ' '

/-- An allowed command that is words with one space between them. -/
def Plain (allowed : String) : Prop := ∀ word ∈ wordList allowed, word ≠ []

/-- The words begin with those of an allowed command. -/
def Begins (policy : SandboxPolicy) (argv : List (List Char)) : Prop :=
  ∃ allowed ∈ policy.allowedCommands, wordList allowed <+: argv

/-- The check goes by an allowed command, and no word in its place has a space inside. -/
def Unbroken (policy : SandboxPolicy) (argv : List (List Char)) : Prop :=
  ∃ allowed ∈ policy.allowedCommands, matchesAllowed (joinWords argv) allowed.toList = true ∧
    ∀ word ∈ argv.take (wordList allowed).length, ' ' ∉ word

/-- The words, each with a space after it. -/
def spaced (words : List (List Char)) : List Char := words.flatMap (· ++ [' '])

theorem spaced_eq {words : List (List Char)} (h : words ≠ []) :
    spaced words = joinWords words ++ [' '] := by
  induction words with
  | nil => exact absurd rfl h
  | cons word words ih =>
    cases words with
    | nil => simp [spaced, joinWords]
    | cons next words =>
      have ih := ih (List.cons_ne_nil _ _)
      simp only [spaced, joinWords, List.flatMap_cons, List.intercalate_cons_cons] at ih ⊢
      rw [ih]
      simp

theorem joinWords_wordList (allowed : String) : joinWords (wordList allowed) = allowed.toList :=
  List.intercalate_splitOn ' '

theorem wordList_ne_nil (allowed : String) : wordList allowed ≠ [] := List.splitOn_ne_nil _ _

theorem not_mem_of_mem_wordList {allowed : String} {word : List Char} (h : word ∈ wordList allowed) :
    ' ' ∉ word := by
  unfold wordList at h
  generalize allowed.toList = text at h
  induction text generalizing word with
  | nil => simp_all
  | cons c cs ih =>
    rw [List.splitOn_cons_eq_if_modifyHead] at h
    split at h
    · rcases List.mem_cons.mp h with rfl | h
      · simp
      · exact ih h
    · next hc =>
      cases hrest : cs.splitOn ' ' with
      | nil => exact absurd hrest (List.splitOn_ne_nil _ _)
      | cons head rest =>
        rw [hrest, List.modifyHead_cons] at h
        rw [hrest] at ih
        rcases List.mem_cons.mp h with rfl | h
        · -- the first word grows by a character that is no space
          intro hmem
          rcases List.mem_cons.mp hmem with heq | hmem
          · exact hc (by simp [← heq])
          · exact ih List.mem_cons_self hmem
        · exact ih (List.mem_cons_of_mem _ h)

theorem eq_of_append_space {u v a b : List Char} (hu : ' ' ∉ u) (hv : ' ' ∉ v)
    (h : u ++ ' ' :: a = v ++ ' ' :: b) : u = v ∧ a = b := by
  induction u generalizing v with
  | nil =>
    cases v with
    | nil => simpa using h
    | cons d v =>
      rw [List.nil_append, List.cons_append, List.cons.injEq] at h
      exact absurd (h.1 ▸ List.mem_cons_self) hv
  | cons c u ih =>
    cases v with
    | nil =>
      rw [List.nil_append, List.cons_append, List.cons.injEq] at h
      exact absurd (h.1 ▸ List.mem_cons_self) hu
    | cons d v =>
      rw [List.cons_append, List.cons_append, List.cons.injEq] at h
      obtain ⟨huv, hab⟩ := ih (fun hm => hu (List.mem_cons_of_mem c hm))
        (fun hm => hv (List.mem_cons_of_mem d hm)) h.2
      exact ⟨by rw [h.1, huv], hab⟩

/-- The check compares the words with a space after each. -/
theorem matchesAllowed_iff {argv : List (List Char)} {allowed : String} (hargv : argv ≠ []) :
    matchesAllowed (joinWords argv) allowed.toList = true ↔
      spaced (wordList allowed) <+: spaced argv := by
  rw [spaced_eq hargv, spaced_eq (wordList_ne_nil allowed), joinWords_wordList, matchesAllowed,
    Bool.or_eq_true, decide_eq_true_eq, List.isPrefixOf_iff_prefix]
  constructor
  · rintro (h | h)
    · rw [h]
    · exact h.trans (List.prefix_append _ _)
  · intro h
    rcases List.prefix_concat_iff.mp h with h | h
    · exact Or.inl (List.append_cancel_right h).symm
    · exact Or.inr h

/-- Where no word has a space inside, words are told by the text they join to. -/
theorem prefix_of_spaced : ∀ {words argv : List (List Char)},
    (∀ word ∈ words, ' ' ∉ word) → (∀ word ∈ argv.take words.length, ' ' ∉ word) →
      spaced words <+: spaced argv → words <+: argv := by
  intro words
  induction words with
  | nil => exact fun _ _ _ => List.nil_prefix
  | cons word words ih =>
    intro argv hwords hargv h
    cases argv with
    | nil =>
      have hlen := h.length_le
      simp [spaced] at hlen
    | cons first argv =>
      obtain ⟨t, ht⟩ := h
      simp only [spaced, List.flatMap_cons, List.append_assoc, List.cons_append] at ht
      obtain ⟨hfirst, hrest⟩ := eq_of_append_space (hwords word List.mem_cons_self)
        (hargv first (by simp)) ht
      refine List.cons_prefix_cons.mpr ⟨hfirst, ih ?_ ?_ ⟨t, hrest⟩⟩
      · exact fun w hw => hwords w (List.mem_cons_of_mem word hw)
      · exact fun w hw => hargv w (by simp [hw])

theorem spaced_mono {words argv : List (List Char)} (h : words <+: argv) :
    spaced words <+: spaced argv := by
  obtain ⟨rest, rfl⟩ := h
  exact ⟨spaced rest, by simp [spaced]⟩

/-- Words begin with an allowed command exactly when none that the check goes by is
broken by a space. -/
theorem begins_iff_unbroken {policy : SandboxPolicy} {argv : List (List Char)}
    (hplain : ∀ allowed ∈ policy.allowedCommands, Plain allowed) :
    Begins policy argv ↔ Unbroken policy argv := by
  constructor
  · rintro ⟨allowed, hmem, hprefix⟩
    have hargv : argv ≠ [] := by
      rintro rfl
      exact wordList_ne_nil allowed (List.prefix_nil.mp hprefix)
    refine ⟨allowed, hmem, (matchesAllowed_iff hargv).mpr (spaced_mono hprefix), ?_⟩
    rw [← List.prefix_iff_eq_take.mp hprefix]
    exact fun word => not_mem_of_mem_wordList
  · rintro ⟨allowed, hmem, hmatch, hunbroken⟩
    refine ⟨allowed, hmem, ?_⟩
    by_cases hargv : argv = []
    · -- nothing is joined to the empty text, which no plain command is
      subst hargv
      exfalso
      have hempty : allowed.toList = [] := by
        rcases Bool.or_eq_true _ _ |>.mp hmatch with h | h
        · exact (of_decide_eq_true h).symm
        · simp [joinWords] at h
      exact hplain allowed hmem [] (by simp [wordList, hempty]) rfl
    · exact prefix_of_spaced (fun word => not_mem_of_mem_wordList) hunbroken
        ((matchesAllowed_iff hargv).mp hmatch)

/-- What the loop runs are the words of an allowed command. -/
theorem allowed_of_mem_runs {policy : SandboxPolicy} {run : ℕ → List (List Char) → Completion}
    {commands : List String} {argv : List (List Char)} : ∀ {results : List CommandRecord},
    argv ∈ (runCommands policy run results commands).runs →
      ∃ command ∈ commands, commandAllowed command policy = true ∧ shlexSplit command = .ok argv := by
  induction commands with
  | nil => simp [runCommands]
  | cons command commands ih =>
    intro results h
    rw [runCommands] at h
    split at h
    · next hallowed =>
      split at h
      · simp at h
      · next words hsplit =>
        have hthis : argv = words → ∃ c ∈ command :: commands,
            commandAllowed c policy = true ∧ shlexSplit c = .ok argv := by
          rintro rfl
          exact ⟨command, List.mem_cons_self, hallowed, hsplit⟩
        dsimp only at h
        split at h
        · exact hthis (List.mem_singleton.mp h)
        · rcases List.mem_cons.mp h with h | h
          · exact hthis h
          · obtain ⟨c, hc, hrest⟩ := ih h
            exact ⟨c, List.mem_cons_of_mem command hc, hrest⟩
    · simp at h

theorem allowed_of_mem_test {s : ProcessSandbox} {plan : SandboxPlan}
    {run : ℕ → List (List Char) → Completion} {argv : List (List Char)}
    (h : argv ∈ (s.test plan run).2) : ∃ command ∈ plan.steps.flatten,
      commandAllowed command s.policy = true ∧ shlexSplit command = .ok argv := by
  unfold ProcessSandbox.test at h
  split at h
  · simp at h
  · split at h
    · simp at h
    · dsimp only at h
      split at h
      · simp at h
      · simp at h
      · split_ifs at h
        · simp at h
        · simp at h
        · simp at h
        · split at h <;> exact allowed_of_mem_runs h

/-- **Programs.**  A command that is allowed is split into words; they begin with the words of
an allowed command exactly when no word that the check goes by has a space inside; and
the words that a test runs are those of such commands. -/
theorem programs_begin_iff {policy : SandboxPolicy}
    (hplain : ∀ allowed ∈ policy.allowedCommands, Plain allowed) :
    (∀ command, commandAllowed command policy = true →
      ∃ argv, shlexSplit command = .ok argv ∧ (Begins policy argv ↔ Unbroken policy argv)) ∧
    ∀ workspace plan run, ∀ argv ∈ (ProcessSandbox.test ⟨policy, workspace⟩ plan run).2,
      (∃ command ∈ plan.steps.flatten,
        commandAllowed command policy = true ∧ shlexSplit command = .ok argv) ∧
      (Begins policy argv ↔ Unbroken policy argv) := by
  refine ⟨fun command hallowed => ?_, fun workspace plan run argv h => ?_⟩
  · cases hsplit : shlexSplit command with
    | error message =>
      unfold commandAllowed at hallowed
      split at hallowed
      · cases hallowed
      · rw [hsplit] at hallowed
        cases hallowed
    | ok argv => exact ⟨argv, rfl, begins_iff_unbroken hplain⟩
  · exact ⟨allowed_of_mem_test h, begins_iff_unbroken hplain⟩

/-- The default policy's commands are plain. -/
theorem programs_begin_default :
    (∀ command, commandAllowed command {} = true →
      ∃ argv, shlexSplit command = .ok argv ∧ (Begins {} argv ↔ Unbroken {} argv)) ∧
    ∀ workspace plan run, ∀ argv ∈ (ProcessSandbox.test ⟨{}, workspace⟩ plan run).2,
      (∃ command ∈ plan.steps.flatten,
        commandAllowed command {} = true ∧ shlexSplit command = .ok argv) ∧
      (Begins {} argv ↔ Unbroken {} argv) :=
  programs_begin_iff (by
    intro allowed h
    have hcases : allowed = "python3 -m pytest" ∨ allowed = "python3 -m compileall" := by simpa using h
    rcases hcases with rfl | rfl <;> unfold Plain wordList <;> decide)

/-- A plan whose one command is an allowed command in quotes. -/
def quotedPlan : SandboxPlan := ⟨true, [["'python3 -m pytest'"]]⟩

/-- A whole command in quotes is allowed, and run as the name of one program. -/
theorem quoted_command_runs : ∃ argv ∈ (ProcessSandbox.test
      ⟨{}, some ⟨"/work", "c0", .ok true, some []⟩⟩ quotedPlan fun _ _ => .completed 0 "" "").2,
    ¬ Begins {} argv := by
  refine ⟨["python3 -m pytest".toList], by decide +kernel, ?_⟩
  rintro ⟨allowed, h, hprefix⟩
  have hcases : allowed = "python3 -m pytest" ∨ allowed = "python3 -m compileall" := by simpa using h
  rcases hcases with rfl | rfl <;> revert hprefix <;> decide

end SandboxWorker
end AiSaas
