import ChunkRouter.Bytes
import ChunkRouter.ByteStream.Error

/-!
# Scripted streams

A byte stream as the list of its answers. Each call of a reader or writer uses up the front of one of
four scripts; an exhausted script of reads is at its end, and the other three answer that all went
well. A call that is told to wait asks again. Every answer that was asked for is recorded.
-/

namespace ChunkRouter.ByteStream

/-- What a stream answers to a read. -/
inductive ReadTurn where
  /-- Bytes that are there to be read; those that do not fit stay at the front. -/
  | data (bytes : Bytes)
  /-- A read of no bytes. -/
  | eof
  | fail (kind : IoKind)
  | pending
  deriving DecidableEq, Repr

/-- What a stream answers to a write. -/
inductive WriteTurn where
  /-- Take at most this many bytes. -/
  | accept (n : Nat)
  | fail (kind : IoKind)
  | pending
  deriving DecidableEq, Repr

/-- What a stream answers to a flush or a shutdown. -/
inductive Turn where
  | fail (kind : IoKind)
  | pending
  deriving DecidableEq, Repr

/-- One call, as recorded. -/
inductive Call where
  | read (room : Nat)
  | wrote (bytes : Bytes) (offered : Nat)
  | flush
  | shutdown
  deriving DecidableEq, Repr

structure Script where
  reads : List ReadTurn
  writes : List WriteTurn
  flushes : List Turn
  shutdowns : List Turn
  /-- The calls so far, the latest first. -/
  calls : List Call
  deriving DecidableEq, Repr

namespace Script

def record (s : Script) (c : Call) : Script := { s with calls := c :: s.calls }

/-- Forget the calls recorded so far. -/
def forget (s : Script) : Script := { s with calls := [] }

/-- The bytes the stream has taken, in order. -/
def accepted (s : Script) : Bytes :=
  s.calls.reverse.flatMap fun
    | .wrote bytes _ => bytes
    | _ => []

/-- Answer a read into `room` bytes from the turns that are left. -/
def readTurns (room : Nat) : List ReadTurn → List Call → Except IoError Bytes × List ReadTurn × List Call
  | [], calls => (.ok [], [], .read room :: calls)
  | .pending :: turns, calls => readTurns room turns (.read room :: calls)
  | .fail kind :: turns, calls => (.error (.ofKind kind), turns, .read room :: calls)
  | .eof :: turns, calls => (.ok [], turns, .read room :: calls)
  | .data bytes :: turns, calls =>
    let rest := bytes.drop room
    (.ok (bytes.take room), if rest.isEmpty then turns else .data rest :: turns,
      .read room :: calls)

/-- Read at most `room` bytes. -/
def read (s : Script) (room : Nat) : Script × Except IoError Bytes :=
  match readTurns room s.reads s.calls with
  | (result, turns, calls) => ({ s with reads := turns, calls := calls }, result)

/-- Answer a write from the turns that are left. -/
def writeTurns : List WriteTurn → (bytes : Bytes) → Except IoError Nat × List WriteTurn
  | [], bytes => (.ok bytes.length, [])
  | .pending :: turns, bytes => writeTurns turns bytes
  | .fail kind :: turns, _ => (.error (.ofKind kind), turns)
  | .accept n :: turns, bytes => (.ok (min n bytes.length), turns)

/-- Offer `bytes`; the number taken comes back. -/
def write (s : Script) (bytes : Bytes) : Script × Except IoError Nat :=
  match writeTurns s.writes bytes with
  | (.error e, turns) => ({ s with writes := turns }, .error e)
  | (.ok n, turns) =>
    ({ s with writes := turns }.record (.wrote (bytes.take n) bytes.length), .ok n)

/-- Answer a flush or a shutdown, recording `c` each time it is asked for. -/
def turns (c : Call) : List Turn → List Call → Except IoError Unit × List Turn × List Call
  | [], calls => (.ok (), [], c :: calls)
  | .pending :: later, calls => turns c later (c :: calls)
  | .fail kind :: later, calls => (.error (.ofKind kind), later, c :: calls)

def flush (s : Script) : Script × Except IoError Unit :=
  match turns .flush s.flushes s.calls with
  | (result, later, calls) => ({ s with flushes := later, calls := calls }, result)

def shutdown (s : Script) : Script × Except IoError Unit :=
  match turns .shutdown s.shutdowns s.calls with
  | (result, later, calls) => ({ s with shutdowns := later, calls := calls }, result)

/-- What a run of reads can still use up. -/
def readWeight : List ReadTurn → Nat
  | [] => 0
  | .data bytes :: turns => bytes.length + 1 + readWeight turns
  | _ :: turns => 1 + readWeight turns

theorem readWeight_readTurns {room : Nat} (hroom : 0 < room) (turns : List ReadTurn)
    (calls : List Call) {bytes : Bytes} (hne : bytes ≠ [])
    (h : (readTurns room turns calls).1 = .ok bytes) :
    readWeight (readTurns room turns calls).2.1 < readWeight turns := by
  fun_induction readTurns room turns calls with
  | case1 => cases h; exact absurd rfl hne
  | case2 calls turns ih => have := ih h; simp only [readWeight]; omega
  | case3 => cases h
  | case4 => cases h; exact absurd rfl hne
  | case5 data turns calls rest =>
    have hdata : data ≠ [] := by rintro rfl; cases h; exact hne (by simp)
    have hpos : 0 < data.length := List.length_pos_iff.2 hdata
    have hrest : rest.length = data.length - room := List.length_drop
    dsimp only
    split
    · simp only [readWeight]; omega
    · simp only [readWeight]; omega

/-- A read that gave bytes used up some of the script. -/
theorem readWeight_read {s s' : Script} {room : Nat} {bytes : Bytes} (hroom : 0 < room)
    (hne : bytes ≠ []) (h : s.read room = (s', .ok bytes)) :
    readWeight s'.reads < readWeight s.reads := by
  simp only [read, Prod.mk.injEq] at h
  obtain ⟨rfl, hok⟩ := h
  exact readWeight_readTurns hroom _ _ hne hok

end Script

end ChunkRouter.ByteStream
