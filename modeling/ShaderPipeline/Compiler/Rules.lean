import ShaderPipeline.Compiler.Callback
import ShaderPipeline.Text.Blank

/-!
Compilers given by rules: the first rule that applies to a stage and its source tells the answer.
-/

set_option autoImplicit false
set_option relaxedAutoImplicit false

namespace ShaderPipeline

/-- A rule: what it applies to, and what it answers. -/
structure CompileRule where
  /-- The stage that the rule is for, if it is for one only. -/
  stage : Option StageSet
  /-- What sources must contain, if anything. -/
  fragment : Option String
  /-- Whether the compiler cannot be initialized. -/
  failsToInitialize : Bool
  words : Option Binary
  /-- What a failure says. -/
  failure : Option String
  /-- The length that a callback reports for a buffer it filled, if not the whole. -/
  reportedLength : Option Nat
  /-- Whether a callback fails to fill its buffer. -/
  failsToFill : Bool
  deriving DecidableEq, Repr

/-- What a compiler given by rules makes of binaries. -/
inductive RecompileRule where
  | text (start : String)
  | fails (message : String)
  | unsupported
  deriving DecidableEq, Repr

/-- Rules, of which the first that applies counts. -/
structure CompileRules where
  rules : List CompileRule
  recompile : RecompileRule
  deriving DecidableEq, Repr

namespace CompileRules

def applies (stage : StageSet) (source : String) (r : CompileRule) : Bool :=
  (match r.stage with
    | some s => s == stage
    | none => true) &&
  match r.fragment with
  | some text => Text.contains text source
  | none => true

def rule? (c : CompileRules) (stage : StageSet) (source : String) : Option CompileRule :=
  c.rules.find? (applies stage source)

def compile (c : CompileRules) (r : CompileRequest) : Except CompileError Binary :=
  let failed (message : String) : Except CompileError Binary :=
    .error (.failed r.identity.display message)
  match c.rule? r.stage r.source with
  | none => failed "no rule"
  | some rule =>
      if rule.failsToInitialize then .error .notInitialized
      else
        match rule.words with
        | some words => .ok words
        | none => failed (rule.failure.getD "no rule")

def recompiled (c : CompileRules) (stage : StageSet) (binary : Binary) :
    Except CompileError String :=
  match c.recompile with
  | .text start => .ok s!"{start} {stage.display} {binary.length}"
  | .fails message => .error (.failed stage.display message)
  | .unsupported => .error .cannotRecompile

def compiler (c : CompileRules) : Compiler :=
  ⟨c.compile, c.recompiled⟩

/-- The binary that a rule gives for a stage, which is told by its bits. -/
def words? (c : CompileRules) (stage : UInt32) (source : String) : Option Binary :=
  (c.rule? ⟨stage⟩ source).bind (·.words)

def fill? (c : CompileRules) (stage : UInt32) (source : String) : Option FilledBuffer := do
  let rule ← c.rule? ⟨stage⟩ source
  let words ← rule.words
  if rule.failsToFill then none else some ⟨words, rule.reportedLength.getD words.length⟩

def callback (c : CompileRules) : CompileCallback :=
  ⟨fun stage source => (c.words? stage source).map (·.length),
    fun stage source _ => c.fill? stage source⟩

end CompileRules

end ShaderPipeline
