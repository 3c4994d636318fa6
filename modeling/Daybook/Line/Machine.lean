/-
Daybook.Line.Machine — reading a line token by token.

A line is `category duration [task] comment`. A machine of four phases walks
over its tokens, each phase ending at a space: the tokens of the category and
those of the duration are collected until then, the first word behind the
duration may be a task, and all the rest is comment. Each step yields at most
one effect, a part of the entry that is now known.

§1 phases and effects, §2 one step, §3 the end of the line.
-/
import Daybook.Duration
import Daybook.Problem
import Daybook.Rules

namespace Daybook.Line

/-! ## §1 Phases and effects -/

/-- How far a line has been read; the tokens collected so far travel along. -/
inductive Phase where
  | category (run : List Token)
  | hours (run : List Token)
  | task
  /-- The last phase: every further token belongs to the comment. -/
  | comment
deriving DecidableEq, Repr

def Phase.initial : Phase := .category []

/-- A part of the entry that a step has settled. -/
inductive Effect where
  | category (name : String)
  | duration (time : WorkTime)
  | task (name : String)
  | comment (token : Token)
deriving DecidableEq, Repr

/-! ## §2 One step -/

def acceptCategory (c : Classifier) (run : List Token) : Except Problem String :=
  let name := Token.join run
  if !run.isEmpty && c.isCategory name then pure name else throw .invalidCategory

def acceptDuration (run : List Token) : Except Problem WorkTime :=
  match WorkTime.ofTokens? run with
  | some time => pure time
  | none => throw .invalidTime

/-- Reads one token. Spaces before the duration are skipped, spaces before a
task belong to the comment, and only the first word is tried as a task. -/
def step (c : Classifier) : Phase → Token → Except Problem (Phase × Option Effect)
  | .category run, .space => do
    pure (.hours [], some (.category (← acceptCategory c run)))
  | .category run, token => pure (.category (run ++ [token]), none)
  | .hours [], .space => pure (.hours [], none)
  | .hours run, .space => do
    pure (.task, some (.duration (← acceptDuration run)))
  | .hours run, token => pure (.hours (run ++ [token]), none)
  | .task, .space => pure (.task, some (.comment .space))
  | .task, .word word =>
    pure (.comment, some (if c.isTask word then .task word else .comment (.word word)))
  | .task, token => pure (.comment, some (.comment token))
  | .comment, token => pure (.comment, some (.comment token))

/-! ## §3 The end of the line -/

/-- Closes a line: what was being collected counts as if a space followed, and
a line that ends inside its category has no duration. -/
def finish (c : Classifier) : Phase → Except Problem (Option Effect)
  | .category run => do
    let _ ← acceptCategory c run
    throw .invalidTime
  | .hours run => do
    pure (some (.duration (← acceptDuration run)))
  | .task => pure none
  | .comment => pure none

/-- Reads tokens from a phase on, keeping the effects in order. -/
def run (c : Classifier) : Phase → List Token → Except Problem (Phase × List Effect)
  | phase, [] => pure (phase, [])
  | phase, token :: tokens => do
    let (next, effect) ← step c phase token
    let (last, effects) ← run c next tokens
    pure (last, effect.toList ++ effects)

end Daybook.Line
