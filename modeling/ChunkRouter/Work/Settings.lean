/-!
# Queue settings

How many slots a queue starts with, how many it adds when it is full, and how many items it hands
over at once. The last two cannot be zero.
-/

namespace ChunkRouter.Work

inductive SettingsError where
  | zeroBucketSize
  | zeroBulkSize
  deriving DecidableEq, Repr

def SettingsError.message : SettingsError → String
  | .zeroBucketSize => "bucket size must be >= 1"
  | .zeroBulkSize => "bulk size must be >= 1"

def defaultInitialCapacity : Nat := 64

def defaultBucketSize : Nat := 64

def defaultBulkSize : Nat := 32

structure Settings where
  initialCapacity : Nat
  bucketSize : Nat
  bulkSize : Nat
  bucketSize_pos : 0 < bucketSize
  bulkSize_pos : 0 < bulkSize
  deriving DecidableEq, Repr

namespace Settings

def standard : Settings :=
  ⟨defaultInitialCapacity, defaultBucketSize, defaultBulkSize, by decide, by decide⟩

/-- The settings with these values; of two faults the bucket size is named. -/
def make (initialCapacity bucketSize bulkSize : Nat) : Except SettingsError Settings :=
  if hb : bucketSize = 0 then .error .zeroBucketSize
  else if hk : bulkSize = 0 then .error .zeroBulkSize
  else .ok ⟨initialCapacity, bucketSize, bulkSize, Nat.pos_of_ne_zero hb, Nat.pos_of_ne_zero hk⟩

end Settings

end ChunkRouter.Work
