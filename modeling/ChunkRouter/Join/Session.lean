import ChunkRouter.Join.Basic

/-!
# Join sessions

A join in use: commands from outside, and commands its continuation issues on the same join when it
fires. A join fires once, so commands nest at most once. Instead of a continuation a join may have a
channel, which holds the outcome until it is received.
-/

namespace ChunkRouter.Join

inductive Command (ρ : Type) where
  | setCount (n : UInt64)
  | increment
  | block
  | unblock
  | complete (completion : Except String ρ)
  /-- Take out this many memberships. -/
  | register (n : Nat)
  /-- Use up a membership for a completion. -/
  | completeMember (m : Nat) (completion : Except String ρ)
  | dropMember (m : Nat)
  | describe
  | describeMember (m : Nat)
  | receive
  | dropReceiver

/-- What a command answers. -/
inductive Answer (ρ : Type) where
  | done
  | count (n : Nat)
  | flag (b : Bool)
  | text (s : String)
  | overrun
  /-- The command panicked. -/
  | panicked (p : Panic)
  /-- The membership, or the receiver, is used up. -/
  | gone
  | outcome (o : Outcome ρ String)
  | channelEmpty
  | channelClosed

/-- What happened when the join fired. -/
inductive Event (ρ : Type) where
  | fired (outcome : Outcome ρ String)
  | nested (command : Command ρ) (answer : Answer ρ)

/-- The receiving end of a join's channel. -/
inductive Receiver (ρ : Type) where
  | waiting
  | holding (outcome : Outcome ρ String)
  /-- The outcome was received. -/
  | drained
  | dropped

/-- What a join does when it fires. -/
inductive Continuation (ρ : Type) where
  | commands (cs : List (Command ρ))
  | channel

structure Session (ρ : Type) where
  join : Join ρ String
  /-- Memberships in the order they were taken out, with whether each is unused. -/
  members : Array Bool
  receiver : Receiver ρ
  /-- What happened, the latest first. -/
  events : List (Event ρ)

namespace Session

variable {ρ : Type}

def new : Session ρ := ⟨.new, #[], .waiting, []⟩

def describeMember (j : Join ρ String) : String :=
  "JoinMember \x7b join: " ++ j.describe ++ " \x7d"

/-- Carry out a command; if the join fires, its outcome comes back. -/
def step (aggregate : Aggregator ρ String) (fault : Fault ρ String) (s : Session ρ) :
    Command ρ → Session ρ × Answer ρ × Option (Outcome ρ String)
  | .setCount n =>
    match s.join.setCount n with
    | (j, fired) => ({ s with join := j }, .done, fired)
  | .increment => ({ s with join := s.join.register }, .done, none)
  | .block => ({ s with join := s.join.block }, .done, none)
  | .unblock =>
    match s.join.unblock with
    | (j, fired) => ({ s with join := j }, .done, fired)
  | .complete completion => complete s completion
  | .register n =>
    let members := s.members ++ Array.replicate n true
    ({ s with join := (List.range n).foldl (fun j _ => j.register) s.join, members := members },
      .count members.size, none)
  | .completeMember m completion =>
    if s.members.getD m false then
      complete { s with members := s.members.setIfInBounds m false } completion
    else (s, .gone, none)
  | .dropMember m =>
    ({ s with members := s.members.setIfInBounds m false }, .flag (s.members.getD m false), none)
  | .describe => (s, .text s.join.describe, none)
  | .describeMember m =>
    (s, if s.members.getD m false then .text (describeMember s.join) else .gone, none)
  | .receive =>
    match s.receiver with
    | .waiting => (s, .channelEmpty, none)
    | .holding o => ({ s with receiver := .drained }, .outcome o, none)
    | .drained => (s, .channelClosed, none)
    | .dropped => (s, .gone, none)
  | .dropReceiver => ({ s with receiver := .dropped }, .done, none)
where
  complete (s : Session ρ) (completion : Except String ρ) :
      Session ρ × Answer ρ × Option (Outcome ρ String) :=
    match if s.join.remaining = 0 then none else fault s.join.outcome completion with
    | some (o, panic) => ({ s with join := s.join.abandon o }, .panicked panic, none)
    | none =>
      match s.join.complete aggregate completion with
      | (j, .error .overrun) => ({ s with join := j }, .overrun, none)
      | (j, .ok fired) => ({ s with join := j }, .done, fired)

/-- An outcome arrives at the channel. -/
def deliver (s : Session ρ) (o : Outcome ρ String) : Session ρ :=
  match s.receiver with
  | .waiting => { s with receiver := .holding o }
  | _ => s

/-- Carry out the commands of the continuation and record their answers. A panic ends it, and comes
back without being recorded. -/
def continuation (aggregate : Aggregator ρ String) (fault : Fault ρ String) :
    List (Command ρ) → Session ρ → Session ρ × Option Panic
  | [], s => (s, none)
  | c :: cs, s =>
    match s.step aggregate fault c with
    | (s, .panicked panic, _) => (s, some panic)
    | (s, answer, _) =>
      continuation aggregate fault cs { s with events := .nested c answer :: s.events }

/-- Carry out a command from outside, and the continuation if the join fires. The session comes back
without older events. -/
def command (aggregate : Aggregator ρ String) (fault : Fault ρ String) (onFire : Continuation ρ)
    (s : Session ρ) (c : Command ρ) : Session ρ × Answer ρ :=
  match step aggregate fault { s with events := [] } c with
  | (s, answer, none) => (s, answer)
  | (s, answer, some o) =>
    match onFire with
    | .channel => (s.deliver o, answer)
    | .commands cs =>
      match continuation aggregate fault cs { s with events := .fired o :: s.events } with
      | (s, none) => (s, answer)
      | (s, some panic) => (s, .panicked panic)

end Session

end ChunkRouter.Join
