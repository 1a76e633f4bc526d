import Almanac.Count
import Almanac.Cron.Cache

/-!
# Computations over the cache of expressions

Whatever reads cron texts does so through a cache, and leaves records in a log. A `Cached`
computation takes a cache to an outcome: a result or an error, the cache afterwards, and the records
that were added. One that fails keeps the changes it made and the records it left before.
-/

namespace Almanac

open Almanac.Cron

inductive LogEntry where
  | parsed (text : String)
  | totalled (jobId : Value) (total : Count) (days : Nat)
  | skipped (jobId : Value) (error : ParseError)
deriving DecidableEq

def LogEntry.message : LogEntry → String
  | .parsed text => s!"Parsed cron expression '{text}'"
  | .totalled jobId total days =>
      s!"Job {jobId.toText}: {total.toValue.toText} runs over {days} days"
  | .skipped jobId error => s!"Skipping job {jobId.toText}: {error.message}"

structure Outcome (α : Type) where
  result : Except Error α
  cache : Cache
  log : List LogEntry

def Cached (α : Type) : Type := Cache → Outcome α

namespace Cached

variable {α β : Type}

def ofResult (result : Except Error α) : Cached α := fun cache => ⟨result, cache, []⟩

/-- The second computation sees the result and the cache of the first, unless that failed. -/
def andThen (first : Cached α) (next : α → Cached β) : Cached β := fun cache =>
  match first cache with
  | ⟨.ok value, cache, log⟩ =>
      let second := next value cache
      ⟨second.result, second.cache, log ++ second.log⟩
  | ⟨.error error, cache, log⟩ => ⟨.error error, cache, log⟩

instance : Monad Cached where
  pure value := ofResult (.ok value)
  bind := andThen

def record (entry : LogEntry) : Cached Unit := fun cache => ⟨.ok (), cache, [entry]⟩

def catchRefusal (first : Cached α) : Cached (Except ParseError α) := fun cache =>
  match first cache with
  | ⟨.ok value, cache, log⟩ => ⟨.ok (.ok value), cache, log⟩
  | ⟨.error (.cron error), cache, log⟩ => ⟨.ok (.error error), cache, log⟩
  | ⟨.error error, cache, log⟩ => ⟨.error error, cache, log⟩

/-- One computation for each item, in order; the first that fails ends them. -/
def forEach (act : α → Cached β) : List α → Cached (List β)
  | [] => ofResult (.ok [])
  | item :: rest => andThen (act item) fun head =>
      andThen (forEach act rest) fun tail => ofResult (.ok (head :: tail))

def expression (value : Value) : Cached Expression := fun cache =>
  match cache.get value with
  | (.ok found, cache) =>
      ⟨.ok found.entry.expression, cache,
        if found.isFresh then [.parsed found.entry.expression.text] else []⟩
  | (.error error, cache) => ⟨.error error, cache, []⟩

def clear : Cached Unit := fun cache => ⟨.ok (), cache.clear, []⟩

@[simp] theorem ofResult_apply (result : Except Error α) (cache : Cache) :
    ofResult result cache = ⟨result, cache, []⟩ := rfl

@[simp] theorem bind_eq (first : Cached α) (next : α → Cached β) :
    first >>= next = andThen first next := rfl

@[simp] theorem andThen_ofResult_ok (value : α) (next : α → Cached β) :
    andThen (ofResult (.ok value)) next = next value := by
  funext cache
  simp [andThen, ofResult]

end Cached

end Almanac
