/-
# A cache in memory

Entries live as long as the process.
-/

import MusicCollections.Cache.Basic

namespace MusicCollections

/-- A value and when it was written. -/
structure CacheEntry where
  value : Json
  written : Time

/-- Entries by key, the latest of a key first. -/
structure MemoryCache where
  entries : List (String × CacheEntry) := []

namespace MemoryCache

def get? (cache : MemoryCache) (key : String) : Option CacheEntry := cache.entries.lookup key

def put (cache : MemoryCache) (key : String) (entry : CacheEntry) : MemoryCache :=
  ⟨(key, entry) :: cache.entries.filter (·.1 != key)⟩

/-- Gives an entry, if there is one, another time. -/
def setModified (key : String) (time : Time) (cache : MemoryCache) : MemoryCache :=
  match cache.get? key with
  | none => cache
  | some entry => cache.put key { entry with written := time }

instance : Cache MemoryCache where
  contains key cache := ((cache.get? key).isSome, cache)
  read key cache := ((cache.get? key).map (·.value), cache)
  write now key value cache := cache.put key ⟨value, now⟩
  lastModified key cache := ((cache.get? key).map (·.written), cache)

@[simp] theorem get?_put_self (cache : MemoryCache) (key : String) (entry : CacheEntry) :
    (cache.put key entry).get? key = some entry := by
  simp [put, get?]

end MemoryCache

end MusicCollections
