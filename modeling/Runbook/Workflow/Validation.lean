import Runbook.Finding
import Runbook.Workflow.Definition

/-!
Checks of a definition's structure. There is one initial state with one way out; transitions
name declared states; a terminal state can be reached; only forks have several unguarded exits;
all branches of a fork reach one join; joins bring several branches together. Cycles are no
fault.
-/
namespace Runbook.Workflow

/-- What can be wrong with a definition. -/
inductive Issue where
  | noInitial
  | severalInitial (ids : List String)
  | initialExit (id : String)
  | undeclared (source target id : String)
  | unreachable (id : String)
  | noTerminal
  | deadEnd (id : String)
  | choiceWithoutExit (id : String)
  | ambiguousExit (id : String) (isChoice : Bool) (count : Nat)
  | forkBranches (id : String)
  | forkGuard (id target : String)
  | forkWithoutJoin (id : String)
  | branchNotJoined (branch fork join : String)
  | joinIncoming (id : String)
  | joinOutgoing (id : String)
  deriving DecidableEq, Repr

namespace Issue

def severity : Issue → Severity
  | .unreachable _ | .deadEnd _ => .warning
  | _ => .error

def code : Issue → String
  | .noInitial => "no_initial"
  | .severalInitial _ => "multiple_initial"
  | .initialExit _ => "initial_exit"
  | .undeclared .. => "undeclared_state"
  | .unreachable _ => "unreachable"
  | .noTerminal => "no_terminal"
  | .deadEnd _ => "dead_end"
  | .choiceWithoutExit _ => "choice_no_exit"
  | .ambiguousExit .. => "ambiguous_exit"
  | .forkBranches _ => "fork_branches"
  | .forkGuard .. => "fork_guard"
  | .forkWithoutJoin _ => "fork_no_join"
  | .branchNotJoined .. => "branch_not_joined"
  | .joinIncoming _ => "join_incoming"
  | .joinOutgoing _ => "join_outgoing"

def message : Issue → String
  | .noInitial => "Workflow has no initial state ([*] --> X)"
  | .severalInitial ids =>
    s!"Workflow has {ids.length} initial states: " ++ String.intercalate ", " ids
  | .initialExit _ => "Initial state must have exactly one unguarded outgoing transition"
  | .undeclared source target id =>
    s!"Transition {source} --> {target} references undeclared state {id}"
  | .unreachable id => s!"State {id} is unreachable"
  | .noTerminal => "No terminal state ([*]) is reachable from the initial state"
  | .deadEnd id => s!"State {id} has no outgoing transitions"
  | .choiceWithoutExit id => s!"Choice {id} has no branches"
  | .ambiguousExit id isChoice count =>
    let what := if isChoice then "Choice" else "State"
    s!"{what} {id} has {count} unguarded transitions; at most one default branch is allowed"
  | .forkBranches id => s!"Fork {id} needs at least two outgoing transitions"
  | .forkGuard id target => s!"Fork {id} branch to {target} must not have a guard"
  | .forkWithoutJoin id => s!"Fork {id} has no matching join"
  | .branchNotJoined branch fork join =>
    s!"Branch {branch} of fork {fork} never reaches join {join}"
  | .joinIncoming id => s!"Join {id} needs at least two incoming transitions"
  | .joinOutgoing id => s!"Join {id} must have exactly one outgoing transition"

/-- The state an issue is about. -/
def state : Issue → Option String
  | .noInitial | .severalInitial _ | .noTerminal => none
  | .undeclared _ _ id => some id
  | .branchNotJoined branch _ _ => some branch
  | .initialExit id | .unreachable id | .deadEnd id | .choiceWithoutExit id
  | .ambiguousExit id _ _ | .forkBranches id | .forkGuard id _ | .forkWithoutJoin id
  | .joinIncoming id | .joinOutgoing id => some id

def finding (workflow : String) (i : Issue) : Finding :=
  ⟨i.severity, i.code, i.message, some workflow, i.state⟩

end Issue

namespace Definition

def initialIssues (d : Definition) : List Issue :=
  match d.ofKind .initial with
  | [] => [.noInitial]
  | [s] =>
    match d.outgoing s.id with
    | [t] => if t.guard.isSome then [.initialExit s.id] else []
    | _ => [.initialExit s.id]
  | states => [.severalInitial (states.map State.id)]

def referenceIssues (d : Definition) : List Issue :=
  d.transitions.flatMap fun t =>
    ([t.source, t.target].filter fun id => !d.declares id).map (.undeclared t.source t.target)

def unreachableIssues (d : Definition) (reachable : List String) : List Issue :=
  (d.states.filter fun s => !reachable.contains s.id && !s.kind.isPseudo).map
    fun s => .unreachable s.id

def terminalIssues (d : Definition) (reachable : List String) : List Issue :=
  if (d.ofKind .terminal).any fun s => reachable.contains s.id then [] else [.noTerminal]

def deadEndIssues (d : Definition) (reachable : List String) : List Issue :=
  (d.states.filter fun s =>
    s.kind != .terminal && (d.outgoing s.id).isEmpty && reachable.contains s.id).map
      fun s => .deadEnd s.id

/-- What can be reached matters only where it is clear from which state. -/
def reachabilityIssues (d : Definition) : List Issue :=
  match d.initial? with
  | none => []
  | some s =>
    let reachable := d.reachableFrom [s.id]
    d.unreachableIssues reachable ++ d.terminalIssues reachable ++ d.deadEndIssues reachable

def unguardedCount (d : Definition) (id : String) : Nat :=
  ((d.outgoing id).filter fun t => t.guard.isNone).length

def stateExitIssues (d : Definition) (s : State) : List Issue :=
  if s.kind == .fork || s.kind.isPseudo then []
  else
    (if s.kind == .choice && (d.outgoing s.id).isEmpty then [.choiceWithoutExit s.id] else []) ++
      (if 1 < d.unguardedCount s.id then
        [.ambiguousExit s.id (s.kind == .choice) (d.unguardedCount s.id)]
      else [])

def exitIssues (d : Definition) : List Issue := d.states.flatMap d.stateExitIssues

/-- The join that ends the branches of a fork: that of its region, or else the first join that all
branches reach, or else the first that the first branch reaches. -/
def matchingJoin? (d : Definition) (fork : String) (branches : List String) : Option String :=
  match d.regionOf? fork with
  | some r => some r.join
  | none =>
    let joins := (d.ofKind .join).map State.id
    match branches with
    | [] => none
    | first :: _ =>
      (joins.find? fun j => branches.all fun b => d.canReach b j).or
        (joins.find? fun j => d.canReach first j)

def forkIssuesOf (d : Definition) (fork : String) : List Issue :=
  let exits := d.outgoing fork
  let branches := exits.map Transition.target
  (if exits.length < 2 then [.forkBranches fork] else []) ++
    (exits.filter fun t => t.guard.isSome).map (fun t => .forkGuard fork t.target) ++
    (match d.matchingJoin? fork branches with
      | none => [.forkWithoutJoin fork]
      | some join =>
        (branches.filter fun b => !d.canReach b join).map fun b => .branchNotJoined b fork join)

def forkIssues (d : Definition) : List Issue :=
  (d.ofKind .fork).flatMap fun s => d.forkIssuesOf s.id

def joinIssuesOf (d : Definition) (join : String) : List Issue :=
  (if (d.incoming join).length < 2 then [.joinIncoming join] else []) ++
    (if (d.outgoing join).length ≠ 1 then [.joinOutgoing join] else [])

def joinIssues (d : Definition) : List Issue :=
  (d.ofKind .join).flatMap fun s => d.joinIssuesOf s.id

/-- Everything that is wrong with a definition. -/
def issues (d : Definition) : List Issue :=
  d.initialIssues ++ d.referenceIssues ++ d.reachabilityIssues ++ d.exitIssues ++ d.forkIssues ++
    d.joinIssues

def validate (d : Definition) : Report := ⟨d.issues.map (Issue.finding d.name), 1⟩

end Definition

end Runbook.Workflow
