/-
  Verdict.Vote — combining any number of states into one.

  `all` and `any` are the connectives over many states: `no` dominates the one and `yes`
  the other, and an undecided state is passed on. The other combinations are votes: each
  state counts its worth times a weight, and the sign of the sum decides. `lead` counts
  the two decided states against each other; `consensus` and `majority` weigh all states
  alike, each on its own.
-/

import Verdict.State

namespace Verdict.Vote

def all (states : List State) : State :=
  if states.contains .no then .no
  else if states.contains .unknown then .unknown
  else .yes

def any (states : List State) : State :=
  if states.contains .yes then .yes
  else if states.contains .unknown then .unknown
  else .no

/-- The state that occurs more often of the two decided ones; undecided on a tie. -/
def lead (states : List State) : State :=
  let yes := states.count .yes
  let no := states.count .no
  if yes = no then .unknown else if no < yes then .yes else .no

/-- The sum of the states' worths. -/
def score : List State → Int
  | [] => 0
  | s :: states => s.toInt + score states

/-- The sum of worth times weight; states without a weight count once. -/
def weightedSum : (weights : List Int) → List State → Int
  | _, [] => 0
  | [], s :: states => s.toInt + weightedSum [] states
  | w :: weights, s :: states => s.toInt * w + weightedSum weights states

def weighted (weights : List Int) (states : List State) : State :=
  .ofTrit (.ofInt (weightedSum weights states))

def consensus (states : List State) : State :=
  weighted (List.replicate states.length 1) states

def majority (states : List State) : State :=
  weighted (List.replicate states.length 1) states

/-- A vote that some state must win outright, over both others. -/
inductive Plurality
  | yes | no | tie
  deriving DecidableEq, Repr

def Plurality.word : Plurality → String
  | yes => "true"
  | no => "false"
  | tie => "tie"

def plurality (states : List State) : Plurality :=
  let yes := states.count .yes
  let no := states.count .no
  let unknown := states.count .unknown
  if no < yes ∧ unknown < yes then .yes
  else if yes < no ∧ unknown < no then .no
  else .tie

end Verdict.Vote
