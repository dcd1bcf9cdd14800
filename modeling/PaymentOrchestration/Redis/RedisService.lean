import PaymentOrchestration.Machine

/-!
This module contains `RedisService`: every operation goes to the Redis server until one of them
fails, from then on the instance works on its in-memory store.
-/

namespace PaymentOrchestration

namespace RedisService

def get (key : String) : Program (Option Stored) := do
  match ← perform (.mock (.get key)) with
  | some value => return value
  | none =>
    try
      perform (.client (.get key))
    catch _ =>
      perform (.fallback (.get key))

def set (key : String) (value : Stored) (mode : Option SetMode)
    (durationMode : Option DurationMode) (duration : Option Nat) : Program Bool := do
  match ← perform (.mock (.set key value mode)) with
  | some ok => return ok
  | none =>
    try
      match mode, durationMode, duration with
      | some mode, some durationMode, some duration =>
        perform (.client (.set key value (some (durationMode, duration)) (some mode)))
      | _, some durationMode, some duration =>
        perform (.client (.set key value (some (durationMode, duration)) none))
      | _, _, _ => perform (.client (.set key value none none))
    catch _ =>
      perform (.fallback (.set key value mode))

def del (key : String) : Program Nat := do
  match ← perform (.mock (.del key)) with
  | some count => return count
  | none =>
    try
      perform (.client (.del key))
    catch _ =>
      perform (.fallback (.del key))

-- `getClient().lpush` and `getClient().brpop`: outside the fallback the client is used bare.
def lpush (queue : String) (item : String) : Program Nat := do
  match ← perform (.mock (.lpush queue item)) with
  | some length => return length
  | none => perform (.client (.lpush queue item))

def brpop (queue : String) : Program (Option String) := do
  match ← perform (.mock (.brpop queue)) with
  | some item => return item
  | none => perform (.client (.brpop queue))

end RedisService

end PaymentOrchestration
