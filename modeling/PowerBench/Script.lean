import PowerBench.Session

/-!
# Scripted instruments

An instrument that plays back prepared answers, one for each call, and falls back to one answer when
they are used up.
-/

set_option autoImplicit false

namespace PowerBench

inductive CallFailure where
  | timedOut
  | notStarted (cause : IoFault)
  | io (cause : IoFault)
deriving DecidableEq, Repr

def CallFailure.toError (c : Call) : CallFailure → ClientError
  | .timedOut => .timedOut c.program.shown c.limit 0
  | .notStarted cause => .notStarted c.program.shown cause
  | .io cause => .io cause

/-- A prepared answer. A call that fails does nothing to its file. -/
structure Answer where
  failure? : Option CallFailure := none
  file : FileEffect := .keep
  output : String := ""
  exitCode? : Option Int := some 0
deriving DecidableEq, Repr

def Answer.reply (a : Answer) (c : Call) : Reply :=
  match a.failure? with
  | some failure => { result := .error (failure.toError c), file := .keep, log := [] }
  | none =>
    { result := .ok ⟨a.output, a.exitCode?⟩, file := a.file, log := [] }

namespace Instrument

/-- The answers in order, then `fallback`. -/
def scripted (fallback : Answer) : Instrument (List Answer) := fun _ c answers =>
  match answers with
  | [] => (fallback.reply c, [])
  | a :: rest => (a.reply c, rest)

def answering (f : Call → Answer) : Instrument Unit := fun _ c _ => ((f c).reply c, ())

end Instrument

def Session.text {σ : Type} (s : Session σ) : String :=
  "MockRunner \x7b calls: " ++ toString s.calls.length ++ ", .. \x7d"

end PowerBench
