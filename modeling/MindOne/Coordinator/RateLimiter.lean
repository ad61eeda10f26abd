import Mathlib.Data.List.MinMax
import MindOne.Lib.KeyedTable
import MindOne.Regulated.Encodings

/-!
# The rate limiter

One map holds a bucket for every key that was charged within the last window. A call
is checked for all of its keys before any of them is charged. A new bucket in a full
map takes the place of the oldest one.
-/

namespace MindOne.RateLimits

open KeyedTable MindOne.Regulated

structure RateKey where
  digest : Bytes 32
  deriving DecidableEq

/-- Instants are in nanoseconds. -/
structure RateWindow where
  started : Nat
  count : UInt32
  deriving DecidableEq

/-- 60 seconds. -/
def rateWindow : Nat := 60 * 1000000000

def maxRateBuckets : Nat := 4096

def authenticatedIpBurstMultiplier : UInt32 := 8

def webAuthRequestsPerMinute : UInt32 := 10

/-- The map from keys to windows. -/
abbrev Windows := Table (Prod.fst : RateKey × RateWindow → RateKey)

/-- The order in which a hash map yields its entries. -/
structure IterationOrder where
  entries : List (RateKey × RateWindow) → List (RateKey × RateWindow)
  perm : ∀ rows, (entries rows).Perm rows

def saturatingAdd (a b : UInt32) : UInt32 :=
  if a.toNat + b.toNat < 2 ^ 32 then a + b else 4294967295

def saturatingMul (a b : UInt32) : UInt32 :=
  if a.toNat * b.toNat < 2 ^ 32 then a * b else 4294967295

section Map
variable (order : IterationOrder) (now : Nat) (windows : Windows) (key : RateKey)

def get : Option RateWindow := (windows.find key).map Prod.snd

def live : Windows := windows.retain fun entry => decide (now - entry.2.started < rateWindow)

/-- The bucket that was opened first, the first one of the iteration among equals. -/
def oldest : Option RateKey :=
  ((order.entries windows.rows).argmin fun entry => entry.2.started).map Prod.fst

/-- The bucket whose place the bucket of a key takes. -/
def victim : Option RateKey :=
  if get windows key = none ∧ maxRateBuckets ≤ windows.rows.length then oldest order windows
  else none

def makeRoom : Windows :=
  match victim order windows key with
  | some oldest => windows.erase oldest
  | none => windows

/-- The window of a key after one more request. -/
def counted (window : Option RateWindow) : RateWindow :=
  let window := window.getD ⟨now, 0⟩
  { window with count := saturatingAdd window.count 1 }

/-- What the loop of `allow` does for one key. -/
def charge : Windows :=
  let windows := makeRoom order windows key
  windows.set (key, counted now (get windows key))

end Map

/-- No key of a call has reached its limit. -/
def admits (keys : List (RateKey × UInt32)) (windows : Windows) : Bool :=
  !keys.any fun (key, limit) => (get windows key).any fun window => decide (limit ≤ window.count)

def chargeAll (order : IterationOrder) (now : Nat) (keys : List (RateKey × UInt32))
    (windows : Windows) : Windows :=
  keys.foldl (fun windows entry => charge order now windows entry.1) windows

def allow (order : IterationOrder) (now : Nat) (keys : List (RateKey × UInt32))
    (windows : Windows) : Bool × Windows :=
  let windows := live now windows
  if admits keys windows then (true, chargeAll order now keys windows) else (false, windows)

section Callers

/-- A limiter never has a limit of zero. -/
structure GlobalRateLimiter where
  limit : UInt32
  positive : 0 < limit

def GlobalRateLimiter.new (limit : UInt32) : GlobalRateLimiter where
  limit := if limit = 0 then 1 else limit
  positive := by
    split
    · decide
    · rename_i hne
      exact UInt32.pos_iff_ne_zero.mpr hne

def GlobalRateLimiter.requestLimits (self : GlobalRateLimiter) (client : RateKey)
    (authorization : Option RateKey) : List (RateKey × UInt32) :=
  match authorization with
  | some authorization =>
      [(client, saturatingMul self.limit authenticatedIpBurstMultiplier),
        (authorization, self.limit)]
  | none => [(client, self.limit)]

/-- A call with one or two different keys, at limits that are not zero. -/
structure RateCall where
  now : Nat
  first : RateKey × UInt32
  second : Option (RateKey × UInt32)
  distinct : ∀ other ∈ second, other.1 ≠ first.1
  positive : ∀ entry ∈ first :: second.toList, 0 < entry.2

def RateCall.keys (self : RateCall) : List (RateKey × UInt32) := self.first :: self.second.toList

theorem saturatingMul_pos {a b : UInt32} (ha : 0 < a) (hb : 0 < b) : 0 < saturatingMul a b := by
  have hpos : 0 < a.toNat * b.toNat := Nat.mul_pos ha hb
  simp only [saturatingMul]
  split
  · rename_i hsmall
    rw [UInt32.lt_iff_toNat_lt, UInt32.toNat_mul, Nat.mod_eq_of_lt hsmall]
    exact hpos
  · decide

/-- The calls that `enforce_rate_limit` makes. -/
def GlobalRateLimiter.call (self : GlobalRateLimiter) (now : Nat) (client : RateKey)
    (authorization : Option RateKey) (hdistinct : ∀ key ∈ authorization, key ≠ client) :
    RateCall where
  now := now
  first := (client, if authorization.isSome then
    saturatingMul self.limit authenticatedIpBurstMultiplier else self.limit)
  second := authorization.map fun key => (key, self.limit)
  distinct := by
    intro other hother
    obtain ⟨key, hkey, rfl⟩ := Option.map_eq_some_iff.mp hother
    exact hdistinct key hkey
  positive := by
    have hburst := saturatingMul_pos self.positive
      (show 0 < authenticatedIpBurstMultiplier by decide)
    intro entry hentry
    rcases List.mem_cons.mp hentry with rfl | hentry
    · simp only
      split
      · exact hburst
      · exact self.positive
    · obtain ⟨key, _, rfl⟩ := Option.map_eq_some_iff.mp (Option.mem_toList.mp hentry)
      exact self.positive

theorem GlobalRateLimiter.keys_call (self : GlobalRateLimiter) (now : Nat) (client : RateKey)
    (authorization : Option RateKey) (hdistinct : ∀ key ∈ authorization, key ≠ client) :
    (self.call now client authorization hdistinct).keys =
      self.requestLimits client authorization := by
  cases authorization with
  | none => rfl
  | some key => rfl

end Callers

section Charging
variable {order : IterationOrder} {now : Nat} {windows : Windows} {key other : RateKey}

theorem get_eq_none : get windows key = none ↔ windows.find key = none := Option.map_eq_none_iff

theorem get_live : get (live now windows) key =
    (get windows key).filter fun window => decide (now - window.started < rateWindow) := by
  rw [get, live, Table.find_retain, get]
  cases hfind : windows.find key with
  | none => rfl
  | some entry =>
      by_cases h : now - entry.2.started < rateWindow
      · simp [Option.filter, h]
      · simp [Option.filter, h]

theorem get_erase :
    get (windows.erase other) key = if key = other then none else get windows key := by
  rw [get, Table.find_erase]
  split
  · rfl
  · rfl

theorem get_set {window : RateWindow} : get (windows.set (other, window)) key =
    if key = other then some window else get windows key := by
  rw [get, Table.find_set]
  split
  · rfl
  · rfl

/-- Only a stored bucket gives way, and only to a key without one. -/
theorem victim_eq_some (h : victim order windows key = some other) :
    get windows key = none ∧ maxRateBuckets ≤ windows.rows.length ∧
      ∃ entry ∈ windows.rows, entry.1 = other ∧
        ∀ row ∈ windows.rows, entry.2.started ≤ row.2.started := by
  simp only [victim, oldest, Option.ite_none_right_eq_some, Option.map_eq_some_iff] at h
  obtain ⟨⟨habsent, hfull⟩, entry, hentry, hkey⟩ := h
  have hperm := order.perm windows.rows
  refine ⟨habsent, hfull, entry, hperm.mem_iff.mp (List.argmin_mem hentry), hkey, ?_⟩
  intro row hrow
  exact List.le_of_mem_argmin (f := fun entry : RateKey × RateWindow => entry.2.started)
    (hperm.mem_iff.mpr hrow) hentry

theorem victim_ne_self : victim order windows key ≠ some key := by
  intro h
  obtain ⟨habsent, _, entry, hentry, hkey, _⟩ := victim_eq_some h
  rw [get_eq_none, Table.find_eq_none] at habsent
  exact habsent entry hentry hkey

theorem get_makeRoom_of_spared (h : victim order windows key ≠ some other) :
    get (makeRoom order windows key) other = get windows other := by
  simp only [makeRoom]
  split
  · rename_i oldest hvictim
    rw [get_erase, if_neg]
    rintro rfl
    exact h hvictim
  · rfl

@[simp] theorem get_charge_self :
    get (charge order now windows key) key = some (counted now (get windows key)) := by
  rw [charge, get_set, if_pos rfl, get_makeRoom_of_spared victim_ne_self]

theorem get_charge_of_spared (hne : other ≠ key) (h : victim order windows key ≠ some other) :
    get (charge order now windows key) other = get windows other := by
  rw [charge, get_set, if_neg hne, get_makeRoom_of_spared h]

theorem get_charge_of_victim (h : victim order windows key = some other) :
    get (charge order now windows key) other = none := by
  have hne : other ≠ key := by
    rintro rfl
    exact victim_ne_self h
  rw [charge, get_set, if_neg hne, makeRoom, h]
  simp only [get_erase, if_true]

theorem length_makeRoom (h : get windows key = none)
    (hbound : windows.rows.length ≤ maxRateBuckets) :
    (makeRoom order windows key).rows.length < maxRateBuckets := by
  simp only [makeRoom]
  split
  · rename_i oldest hvictim
    obtain ⟨_, _, entry, hentry, rfl, _⟩ := victim_eq_some hvictim
    have hlength := Table.length_erase (Table.find_of_mem hentry)
    omega
  · rename_i hnone
    by_cases hfull : maxRateBuckets ≤ windows.rows.length
    · rw [victim, if_pos ⟨h, hfull⟩, oldest, Option.map_eq_none_iff,
        List.argmin_eq_none] at hnone
      have hempty := (order.perm windows.rows).length_eq
      rw [hnone, List.length_nil] at hempty
      have hmax : maxRateBuckets = 4096 := rfl
      omega
    · omega

/-- A charge keeps the map within its bound. -/
theorem length_charge_le (hbound : windows.rows.length ≤ maxRateBuckets) :
    (charge order now windows key).rows.length ≤ maxRateBuckets := by
  rw [charge, Table.length_set]
  split
  · rename_i habsent
    have hget : get windows key = none := by
      rw [← @get_makeRoom_of_spared order _ _ _ victim_ne_self]
      exact get_eq_none.mpr habsent
    exact length_makeRoom hget hbound
  · simp only [makeRoom]
    split
    · rename_i oldest _
      have hle : (windows.erase oldest).rows.length ≤ windows.rows.length :=
        List.length_filter_le _ _
      exact hle.trans hbound
    · exact hbound

theorem length_chargeAll_le {keys : List (RateKey × UInt32)}
    (hbound : windows.rows.length ≤ maxRateBuckets) :
    (chargeAll order now keys windows).rows.length ≤ maxRateBuckets := by
  induction keys generalizing windows with
  | nil => exact hbound
  | cons entry rest ih => exact ih (length_charge_le hbound)

/-- The keys whose buckets give way to the keys of a call. -/
def evicted (order : IterationOrder) (now : Nat) :
    List (RateKey × UInt32) → Windows → List RateKey
  | [], _ => []
  | entry :: rest, windows =>
      (victim order windows entry.1).toList ++
        evicted order now rest (charge order now windows entry.1)

/-- A bucket that does not give way is counted once if its key is charged. -/
theorem get_chargeAll {keys : List (RateKey × UInt32)} (hnodup : (keys.map Prod.fst).Nodup)
    (h : other ∉ evicted order now keys windows) :
    get (chargeAll order now keys windows) other =
      if other ∈ keys.map Prod.fst then some (counted now (get windows other))
      else get windows other := by
  induction keys generalizing windows with
  | nil => rfl
  | cons entry rest ih =>
      rw [List.map_cons, List.nodup_cons] at hnodup
      obtain ⟨hentry, hrest⟩ := hnodup
      rw [evicted, List.mem_append, not_or, Option.mem_toList] at h
      have htail := ih hrest h.2
      rw [chargeAll, List.foldl_cons, ← chargeAll, htail]
      by_cases hkey : other = entry.1
      · subst hkey
        rw [if_neg hentry, get_charge_self, List.map_cons, if_pos List.mem_cons_self]
      · rw [get_charge_of_spared hkey h.1, List.map_cons]
        simp only [List.mem_cons, hkey, false_or]

end Charging

end MindOne.RateLimits
