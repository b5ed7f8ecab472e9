import Stencil.Partials.Checked
import Stencil.Partials.Naming

/-!
# The cache of partials

The list of partials for every configuration that was loaded, and how often a lookup found one.
A registry forgets both when it is invalidated. A configuration finds what was last put in for it
(`get_insert_self`, `get_insert_of_ne`).
-/

namespace Stencil

/-- What a list of partials depends on: the extension, the resolved directory, and the options. -/
structure Configuration where
  extension : Extension
  directory : Path
  options : CompileOptions
deriving DecidableEq

/-- Lists of partials by configuration, and the counts of lookups. -/
structure Cache where
  entries : List (Configuration × PartialList) := []
  hits : Nat := 0
  misses : Nat := 0
deriving DecidableEq

structure CacheCounts where
  hits : Nat
  misses : Nat
  entries : Nat
deriving DecidableEq, Repr

namespace Cache

def get (cache : Cache) (key : Configuration) : Option PartialList × Cache :=
  match cache.entries.lookup key with
  | some partials => (some partials, { cache with hits := cache.hits + 1 })
  | none => (none, { cache with misses := cache.misses + 1 })

/-- With the partials of a configuration, in place of those it had. -/
def insert (cache : Cache) (key : Configuration) (partials : PartialList) : Cache :=
  { cache with entries := (key, partials) :: cache.entries.filter fun entry => entry.1 ≠ key }

def counts (cache : Cache) : CacheCounts := ⟨cache.hits, cache.misses, cache.entries.length⟩

/-- A configuration finds what was put in for it. -/
theorem get_insert_self (cache : Cache) (key : Configuration) (partials : PartialList) :
    ((cache.insert key partials).get key).1 = some partials := by
  simp [Cache.get, insert]

/-- The other configurations find what they found before. -/
theorem get_insert_of_ne {cache : Cache} {key other : Configuration} {partials : PartialList}
    (h : other ≠ key) : ((cache.insert key partials).get other).1 = (cache.get other).1 := by
  have hk : (other == key) = false := by simpa using h
  -- what the insertion drops stood under its own key, so the others look past it
  have lookup_filter (entries : List (Configuration × PartialList)) :
      (entries.filter fun entry => entry.1 ≠ key).lookup other = entries.lookup other := by
    induction entries with
    | nil => rfl
    | cons entry rest ih =>
      obtain ⟨k, partials⟩ := entry
      by_cases he : k = key
      · subst he
        rw [List.filter_cons_of_neg (by simp), ih, List.lookup_cons, hk]
      · rw [List.filter_cons_of_pos (by simpa using he), List.lookup_cons, List.lookup_cons, ih]
  have hrest := lookup_filter cache.entries
  simp only [Cache.get, insert, List.lookup_cons, hk, hrest]
  cases cache.entries.lookup other <;> rfl

end Cache

/-- How many lookups there were, as a word of 64 bits, which begins again at zero. -/
def CacheCounts.lookups (counts : CacheCounts) : Nat :=
  (counts.hits + counts.misses) % Word.count 64

/-- The share of lookups that hit, in percent; zero without lookups. The quotient is rounded to a
double before it is multiplied. -/
def CacheCounts.hitRate (counts : CacheCounts) : Binary64 :=
  if counts.lookups = 0 then .ofNat 0
  else ((Binary64.ofNat counts.hits).div (.ofNat counts.lookups)).mul (.ofNat 100)

end Stencil
