import AiSaas.Lib.Backtracking
import AiSaas.ProjectPacks.Repository
import AiSaas.Re

/-!
# Proposals and their evidence

`ProposalToVerifiedChangePack` of `project_packs/proposal_to_verified_change/pack.py`: a
proposal is parsed into requirements and references to lines of files, each pair of which
becomes an item of evidence; later the items are checked again.

## Main definitions

* `injection`, `runtimeLine`, `requirementLine`, `reference` — the regular expressions.
* `parseProposal` — `parse_proposal`.
* `EvidenceReference` — an item of evidence, with the checks of its constructor as fields.
* `evidence`, `revalidateEvidence`, `plan`, `buildPlan` — the methods of the pack.
-/

namespace AiSaas.ProjectPacks

open Backtracking Regex Re
open Redaction (keyChar)

/-! ### Regular expressions -/

/-- `(?i)(ignore\s+(?:all\s+)?previous instructions|reveal\s+(?:the\s+)?system
prompt|exfiltrat|send\s+secrets|disable\s+safety)` -/
def injection : Regex Char := any [
  all [spelled "ignore", plus space, opt (all [spelled "all", plus space]),
    spelled "previous instructions"],
  all [spelled "reveal", plus space, opt (all [spelled "the", plus space]),
    spelled "system prompt"],
  spelled "exfiltrat",
  all [spelled "send", plus space, spelled "secrets"],
  all [spelled "disable", plus space, spelled "safety"]]

/-- `(?im)^\s*(?:runtime|language)\s*[:=]\s*([A-Za-z0-9_.-]+)` -/
def runtimeLine : Regex Char := all [
  look fun before _ => before = none ∨ before = some '\n',
  star true space, any [spelled "runtime", spelled "language"], star true space,
  one fun c => c == ':' || c == '=', star true space,
  group "runtime" (plus (one fun c => keyChar c || c == '.'))]

/-- `^\s*(REQ-\d+)\s*[:\-]\s*(.+?)\s*$`, ignoring case, of a line. -/
def requirementLine : Regex Char := all [
  star true space, group "id" (all [spelled "req-", plus digit]), star true space,
  one fun c => c == ':' || c == '-', star true space,
  group "text" (seq (one (· != '\n')) (star false (one (· != '\n')))), star true space,
  look fun _ behind => behind = none]

/-- `[A-Za-z0-9_./\-]` -/
def pathChar (c : Char) : Bool := c.isAlphanum || c == '_' || c == '.' || c == '/' || c == '-'

/-- `[A-Za-z0-9_./\-]+\.(?:py|js|ts|tsx|json|md|yaml|yml)` -/
def referencePath : Regex Char := all [plus (one pathChar), one (· == '.'),
  any (["py", "js", "ts", "tsx", "json", "md", "yaml", "yml"].map literal)]

/-- `(?::(?P<start>\d+)(?:-(?P<end>\d+))?)?(?:\s+symbol[:=](?P<symbol>[A-Za-z_][A-Za-z0-9_]*))?` -/
def referenceTail : Regex Char := all [
  opt (all [one (· == ':'), group "start" (plus digit),
    opt (all [one (· == '-'), group "end" (plus digit)])]),
  opt (all [plus space, literal "symbol", one fun c => c == ':' || c == '=',
    group "symbol" (seq (one fun c => c.isAlpha || c == '_')
      (star true (one fun c => c.isAlphanum || c == '_')))])]

/-- `_reference` -/
def reference : Regex Char := seq (group "path" referencePath) referenceTail

/-! ### Records -/

/-- `_required`. -/
def required (value fieldName : String) : Except Raised Unit :=
  if blank value then .error (.valueError (fieldName ++ " must be non-empty")) else .ok ()

/-- `Requirement`. -/
structure Requirement where
  requirementId : String
  title : String
  description : String
  sourceText : String
  requirementId_required : blank requirementId = false
  deriving DecidableEq

/-- `Requirement(…)`, checked. -/
def Requirement.make (requirementId title description sourceText : String) :
    Except Raised Requirement :=
  if h : blank requirementId = false then do
    required title "title"
    required description "description"
    return ⟨requirementId, title, description, sourceText, h⟩
  else .error (.valueError "requirement_id must be non-empty")

/-- A reference of a proposal: path, first and last line, symbol. -/
structure Reference where
  path : String
  (start end' : ℤ)
  symbol : Option String
  deriving DecidableEq

/-- `ParsedProposal`. -/
structure ParsedProposal where
  requirements : List Requirement
  runtime : String
  references : List Reference
  incomplete : Bool
  deriving DecidableEq

/-- `EvidenceReference`. -/
structure EvidenceReference where
  requirementId : String
  path : String
  startLine : ℤ
  endLine : ℤ
  contentHash : String
  symbol : Option String
  authorized : Bool
  valid : Bool
  requirementId_required : blank requirementId = false
  path_required : blank path = false
  range : 1 ≤ startLine ∧ startLine ≤ endLine
  contentHash_required : blank contentHash = false
  deriving DecidableEq

/-- `EvidenceReference(…)`, checked. -/
def EvidenceReference.make (requirementId path : String) (startLine endLine : ℤ)
    (contentHash : String) (symbol : Option String) (authorized valid : Bool) :
    Except Raised EvidenceReference :=
  if hid : blank requirementId = false then
    if hpath : blank path = false then
      if hrange : 1 ≤ startLine ∧ startLine ≤ endLine then
        if hhash : blank contentHash = false then
          .ok ⟨requirementId, path, startLine, endLine, contentHash, symbol, authorized, valid,
            hid, hpath, hrange, hhash⟩
        else .error (.valueError "content_hash must be non-empty")
      else .error (.valueError "evidence line range is invalid")
    else .error (.valueError "path must be non-empty")
  else .error (.valueError "requirement_id must be non-empty")

/-! ### Parsing -/

variable (host : Host)

/-- `int(text or 1)`. -/
def lineNumber (text : Option String) : Except Raised ℤ :=
  match text with
  | none => .ok 1
  | some text =>
    match pyInt text with
    | some n => .ok n
    | none => .error (.valueError "Exceeds the limit (4300 digits) for integer string conversion")

/-- The reference of a match. -/
def matchReference (m : Place Char) : Except Raised Reference := do
  let start ← lineNumber (groupText m "start")
  let end' ← lineNumber ((groupText m "end").or (groupText m "start"))
  return ⟨(groupText m "path").getD "", start, end', groupText m "symbol"⟩

/-- The requirement of a line, if it states one. -/
def lineRequirement (line : String) : Except Raised (Option Requirement) :=
  match matchAt requirementLine none line.toList with
  | some m =>
    let text := (groupText m "text").getD ""
    (Requirement.make (host.upper ((groupText m "id").getD "")) text text line).map some
  | none => .ok none

/-- The requirement of a proposal that states none. -/
def defaultRequirement (proposal : String) : Except Raised Requirement :=
  let first := (((splitlines proposal).map strip).find? fun line => line ≠ "").getD "proposal"
  Requirement.make "REQ-1" (String.ofList (first.toList.take 120))
    (String.ofList (proposal.toList.take 1000)) first

/-- The requirements a proposal states, or the one it is taken for. -/
def requirementsOf (proposal : String) (stated : List Requirement) :
    Except Raised (List Requirement) :=
  if stated = [] then (defaultRequirement proposal).map fun r => [r] else .ok stated

/-- `parse_proposal`. -/
def parseProposal (proposal : String) : Except Raised ParsedProposal :=
  if blank proposal then .error (.valueError "proposal must be non-empty")
  else if (search injection none proposal.toList).isSome then .error .promptInjectionDetected
  else do
    let runtime := match search runtimeLine none proposal.toList with
      | some m => host.lower ((groupText m "runtime").getD "")
      | none => "python"
    let stated ← (splitlines proposal).mapM (lineRequirement host)
    let requirements ← requirementsOf proposal stated.reduceOption
    let references ← (findAll reference proposal.toList).mapM matchReference
    return ⟨requirements, runtime, references,
      references.isEmpty || contains (host.lower proposal) "incomplete"⟩

/-! ### Evidence -/

variable (index : RepositoryIndex)

/-- The references that are looked up: without any, the beginning of the first file. -/
def lookedUp (built : List (String × IndexedFile)) (parsed : ParsedProposal) : List Reference :=
  if parsed.references = [] then
    match RepositoryIndex.files built with
    | first :: _ => [⟨first.path, 1, min 3 first.lines.length, none⟩]
    | [] => []
  else parsed.references

/-- The body of the `try` in `evidence`. -/
def tryItem (built : List (String × IndexedFile)) (requirement : Requirement) (ref : Reference) :
    Except Raised EvidenceReference :=
  (index.evidence host built ref.path ref.start ref.end').bind fun (startLine, endLine, contentHash) =>
    EvidenceReference.make requirement.requirementId ref.path startLine endLine contentHash
      ref.symbol true true

/-- The item of a requirement and a reference. -/
def item (built : List (String × IndexedFile)) (requirement : Requirement) (ref : Reference) :
    Except Raised EvidenceReference :=
  match tryItem host index built requirement ref with
  | .ok item => .ok item
  | .error e =>
    if e.caught then
      EvidenceReference.make requirement.requirementId ref.path (max 1 ref.start) (max 1 ref.end')
        (host.sha256 ref.path) ref.symbol false false
    else .error e

/-- The pairs of requirements and references, in order. -/
def pairs (built : List (String × IndexedFile)) (parsed : ParsedProposal) :
    List (Requirement × Reference) :=
  parsed.requirements.flatMap fun requirement =>
    (lookedUp built parsed).map fun ref => (requirement, ref)

/-- `evidence`. -/
def evidence (checkout : Checkout) (proposal : String) : Except Raised (List EvidenceReference) := do
  let built := index.build host checkout
  let parsed ← parseProposal host proposal
  (pairs built parsed).mapM fun pair => item host index built pair.1 pair.2

/-- The body of the `try` in `revalidate_evidence`. -/
def tryRevalidate (checkout : Checkout) (item : EvidenceReference) :
    Except Raised EvidenceReference :=
  (index.currentEvidence host checkout item.path item.startLine item.endLine).bind
    fun (startLine, endLine, currentHash) =>
      EvidenceReference.make item.requirementId item.path startLine endLine currentHash item.symbol
        item.authorized (item.authorized && currentHash == item.contentHash)

/-- One item, checked again. -/
def revalidate (checkout : Checkout) (item : EvidenceReference) :
    Except Raised EvidenceReference :=
  match tryRevalidate host index checkout item with
  | .ok item => .ok item
  | .error e =>
    if e.caught then
      EvidenceReference.make item.requirementId item.path item.startLine item.endLine
        item.contentHash item.symbol false false
    else .error e

/-- `revalidate_evidence`. -/
def revalidateEvidence (checkout : Checkout) (items : List EvidenceReference) :
    Except Raised (List EvidenceReference) :=
  items.mapM (revalidate host index checkout)

/-! ### Plans -/

/-- `PlanStep`, with the fields the pack sets. -/
structure PlanStep where
  stepId : String
  title : String
  action : String
  evidence : List EvidenceReference

/-- `Plan`. -/
structure Plan where
  planId : String
  requirements : List Requirement
  steps : List PlanStep
  runtime : String
  mode : String
  supportedRuntime : Bool
  unsupportedReason : Option String
  validReferences : Bool

/-- `SUPPORTED_RUNTIMES` -/
def supportedRuntimes : List String :=
  ["python", "python3", "javascript", "typescript", "node", "react", "nextjs"]

variable (repr : List EvidenceReference → String)

/-- `plan`; `repr` is `str(evidence)`. -/
def plan (requirements : List Requirement) (items : List EvidenceReference) (mode : String) :
    Except Raised Plan :=
  if mode ∉ ["plan_only", "verify"] then .error (.valueError "mode must be plan_only or verify")
  else
    let ids := String.intercalate "|" (requirements.map (·.requirementId))
    .ok {
      planId := "plan-" ++ String.ofList ((host.sha256 (ids ++ repr items)).toList.take 16)
      requirements
      steps := requirements.mapIdx fun n requirement => {
        stepId := "step-" ++ toString (n + 1), title := requirement.title
        action := "implement " ++ requirement.requirementId ++ ": " ++ requirement.description
        evidence := items.filter fun item => item.requirementId == requirement.requirementId }
      runtime := "python", mode, supportedRuntime := true, unsupportedReason := none
      validReferences := !items.isEmpty && items.all fun item => item.authorized && item.valid }

/-- `build_plan`. -/
def buildPlan (checkout : Checkout) (proposal mode : String) : Except Raised Plan := do
  let parsed ← parseProposal host proposal
  let items ← evidence host index checkout proposal
  let supported := decide (parsed.runtime ∈ supportedRuntimes)
  let requested := if supported then mode else "plan_only"
  let base ← plan host repr parsed.requirements items requested
  return { base with
    runtime := parsed.runtime, mode := requested, supportedRuntime := supported
    unsupportedReason :=
      if supported then none else some ("unsupported runtime: " ++ parsed.runtime) }

end AiSaas.ProjectPacks
