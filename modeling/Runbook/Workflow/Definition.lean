import Runbook.Workflow.Action

/-!
Workflow definitions: states with actions, and transitions between them that may be guarded. A
definition declares every state once; transitions are a list whose order decides which exit is
taken, and they may name states that are not declared. Questions about paths go by transitions
alone.
-/
namespace Runbook.Workflow

inductive StateKind where
  | normal
  | choice
  | fork
  | join
  | initial
  | terminal
  deriving DecidableEq, Repr

namespace StateKind

def name : StateKind → String
  | .normal => "normal"
  | .choice => "choice"
  | .fork => "fork"
  | .join => "join"
  | .initial => "initial"
  | .terminal => "terminal"

def all : List StateKind := [.normal, .choice, .fork, .join, .initial, .terminal]

def ofName? (s : String) : Option StateKind := all.find? fun k => k.name == s

/-- Initial and terminal states stand for the ends of a diagram; no author declares them. -/
def isPseudo : StateKind → Bool
  | .initial | .terminal => true
  | _ => false

end StateKind

/-- The identifier of the state a diagram begins in. -/
def startId : String := "[*]start"

/-- The identifier of the state a diagram ends in. -/
def endId : String := "[*]end"

structure State where
  id : String
  kind : StateKind
  actions : List Action
  description : String
  /-- The fork that opened the innermost parallel region the state was declared in. -/
  region : Option String
  deriving DecidableEq, Repr

structure Transition where
  source : String
  target : String
  guard : Option String
  label : Option String
  line : Option Nat
  deriving DecidableEq, Repr

/-- A parallel region, from the fork that opens it to the join that closes it. -/
structure Region where
  fork : String
  join : String
  deriving DecidableEq, Repr

structure Note where
  text : String
  state : String
  position : String
  deriving DecidableEq, Repr

structure Metadata where
  name : String
  description : String
  version : String
  initialState : Option String
  deriving DecidableEq, Repr

/-- Puts a state in the place of the one with its identifier, or at the end. -/
def State.putIn (s : State) : List State → List State
  | [] => [s]
  | t :: rest => if t.id = s.id then s :: rest else t :: s.putIn rest

def distinctIds (states : List State) : Prop := (states.map State.id).Nodup

theorem State.mem_ids_putIn {s : State} {states : List State} {id : String} :
    id ∈ (s.putIn states).map State.id ↔ id = s.id ∨ id ∈ states.map State.id := by
  induction states with
  | nil => simp [State.putIn]
  | cons t rest ih =>
    by_cases h : t.id = s.id
    · simp [State.putIn, h]
    · simp only [State.putIn, if_neg h, List.map_cons, List.mem_cons, ih]
      grind

theorem State.distinctIds_putIn {s : State} {states : List State} (h : distinctIds states) :
    distinctIds (s.putIn states) := by
  induction states with
  | nil => simp [State.putIn, distinctIds]
  | cons t rest ih =>
    simp only [distinctIds, List.map_cons, List.nodup_cons] at h
    by_cases hid : t.id = s.id
    · simp only [State.putIn, if_pos hid, distinctIds, List.map_cons, List.nodup_cons]
      exact hid ▸ h
    · have hr : distinctIds (s.putIn rest) := ih h.2
      simp only [State.putIn, if_neg hid, distinctIds, List.map_cons, List.nodup_cons]
      refine ⟨?_, hr⟩
      rw [State.mem_ids_putIn]
      rintro (he | he)
      · exact hid he
      · exact h.1 he

/-- States by identifier: a later one takes the place of an earlier one with the same identifier. -/
def collectStates (states : List State) : List State :=
  states.foldl (fun acc s => s.putIn acc) []

theorem distinctIds_collectStates (states : List State) : distinctIds (collectStates states) := by
  suffices h : ∀ acc, distinctIds acc →
      distinctIds (states.foldl (fun acc s => State.putIn s acc) acc) from
    h [] (by simp [distinctIds])
  induction states with
  | nil => exact fun _ h => h
  | cons s rest ih => exact fun acc h => ih _ (State.distinctIds_putIn h)

structure Definition where
  name : String
  metadata : Metadata
  states : List State
  transitions : List Transition
  regions : List Region
  notes : List Note
  distinct : distinctIds states
  deriving DecidableEq

namespace Definition

/-- The state with an identifier. -/
def state? (d : Definition) (id : String) : Option State := d.states.find? fun s => s.id == id

def declares (d : Definition) (id : String) : Bool := d.states.any fun s => s.id == id

/-- The states an author declared. -/
def named (d : Definition) : List State := d.states.filter fun s => !s.kind.isPseudo

def ofKind (d : Definition) (kind : StateKind) : List State :=
  d.states.filter fun s => s.kind == kind

/-- The initial state, where there is exactly one. -/
def initial? (d : Definition) : Option State :=
  match d.ofKind .initial with
  | [s] => some s
  | _ => none

def outgoing (d : Definition) (id : String) : List Transition :=
  d.transitions.filter fun t => t.source == id

def incoming (d : Definition) (id : String) : List Transition :=
  d.transitions.filter fun t => t.target == id

/-- Adds what a list does not hold yet. -/
def addNew (seen : List String) (id : String) : List String :=
  if seen.contains id then seen else seen ++ [id]

/-- Where the transitions out of a state lead, in the order of the first transition to each. -/
def successors (d : Definition) (id : String) : List String :=
  ((d.outgoing id).map Transition.target).foldl addNew []

/-- Searches from a queue of states. A state is followed when it is first taken from the queue. -/
def search (d : Definition) : Nat → List String → List String → List String
  | _, [], seen => seen
  | 0, _ :: _, seen => seen
  | fuel + 1, id :: queue, seen =>
    if seen.contains id then search d fuel queue seen
    else search d fuel (queue ++ d.successors id) (seen ++ [id])

/-- The states that paths from some states lead to, those states included. The queue takes in every
start once, and for every state the targets of its transitions once. -/
def reachableFrom (d : Definition) (starts : List String) : List String :=
  d.search (starts.length + d.transitions.length) starts []

def canReach (d : Definition) (source target : String) : Bool :=
  (d.reachableFrom [source]).contains target

/-- The first region that a fork opens. -/
def regionOf? (d : Definition) (fork : String) : Option Region :=
  d.regions.find? fun r => r.fork == fork

end Definition

end Runbook.Workflow
