import Almanac.Cron.Expression

/-!
# Cache of read expressions

A bounded cache keeps the expressions that were asked for most recently, by the words of their text.
An expression that is found moves to the recent end; one that is read is added there, and the least
recent entry gives way when the cache is over its capacity. A refused text leaves the cache as it
is.
-/

namespace Almanac.Cron

open Almanac.Text

structure CacheEntry where
  key : String
  expression : Expression
  /-- How many texts had been read before this one; it tells two readings of one text apart. -/
  reading : Nat
deriving DecidableEq, Repr

structure Cache where
  /-- How many expressions are kept; none if the number is not positive. -/
  capacity : Int
  /-- The least recently asked for comes first. -/
  entries : List CacheEntry
  readings : Nat
deriving DecidableEq, Repr

structure Lookup where
  entry : CacheEntry
  isFresh : Bool
deriving DecidableEq, Repr

namespace Cache

def empty (capacity : Int) : Cache := ⟨capacity, [], 0⟩

def keys (cache : Cache) : List String := cache.entries.map (·.key)

def size (cache : Cache) : Nat := cache.entries.length

def keyOf (text : String) : String := String.ofList (normalized text.toList)

def find? (cache : Cache) (key : String) : Option CacheEntry := cache.entries.find? (·.key == key)

def touch (cache : Cache) (entry : CacheEntry) : Cache :=
  { cache with entries := cache.entries.filter (·.key != entry.key) ++ [entry] }

/-- A new entry is added at the recent end, and the oldest one dropped if there are too many. -/
def add (cache : Cache) (entry : CacheEntry) : Cache :=
  let entries := cache.entries ++ [entry]
  { cache with
    entries :=
      if cache.capacity ≤ 0 then cache.entries
      else if cache.capacity < entries.length then entries.drop 1
      else entries
    readings := cache.readings + 1 }

def getText (cache : Cache) (text : String) : Except Error Lookup × Cache :=
  match cache.find? (keyOf text) with
  | some entry => (.ok ⟨entry, false⟩, cache.touch entry)
  | none =>
      match Expression.ofText text with
      | .ok expression =>
          let entry := ⟨keyOf text, expression, cache.readings⟩
          (.ok ⟨entry, true⟩, cache.add entry)
      | .error error => (.error error, cache)

/-- The entry of a stored value. Only a text has one, and lists and records cannot even be looked
up. -/
def get (cache : Cache) : Value → Except Error Lookup × Cache
  | .text text => cache.getText text
  | .list _ => (.error .notAKey, cache)
  | .record _ => (.error .notAKey, cache)
  | value => (.error (.cron ⟨value.toText, .blank⟩), cache)

def clear (cache : Cache) : Cache := { cache with entries := [] }

end Cache

end Almanac.Cron
