-- Skip indices: their kinds, the bounds of their parameters, and their text.
-- A value out of bounds makes no index.
import ColumnStore.Fault
import ColumnStore.Number.FloatText

namespace ColumnStore

inductive SkipIndexKind where
  | minmax
  | bloom (rate : Option Float)
  | tokenBloom (size hashes seed : Nat)
  | ngramBloom (ngram size hashes seed : Nat)
  /-- At most so many rows are kept; zero is no bound. -/
  | set (rows : Nat)

structure SkipIndex where
  kind : SkipIndexKind := .minmax
  granularity : Nat := 3

namespace SkipIndex

/-! ## Building an index within its bounds -/

def outOfRange (name value low high : String) : Fault :=
  .invalid name value ("a value between " ++ low ++ " and " ++ high)

def within (name : String) (low high n : Nat) : Outcome Nat :=
  if low ≤ n ∧ n ≤ high then .ok n
  else .error (outOfRange name (toString n) (toString low) (toString high))

/-- A rate as messages show it. -/
def rateText (rate : Float) : String :=
  if rate.isNaN then "NaN"
  else if rate.isInf then (if rate > 0.0 then "inf" else "-inf")
  else Number.plainFloat rate

def rateWithin (rate : Float) : Outcome Float :=
  if 0.001 ≤ rate ∧ rate ≤ 0.5 then .ok rate
  else .error (outOfRange "bloom_filter false positive rate" (rateText rate) "0.001" "0.5")

def build (kind : SkipIndexKind) (granularity : Nat) : Outcome SkipIndex := do
  return ⟨kind, ← within "skip index granularity" 1 1000 granularity⟩

def minmax (granularity : Nat) : Outcome SkipIndex := build .minmax granularity

def bloom (granularity : Nat) : Outcome SkipIndex := build (.bloom none) granularity

def bloomWithRate (rate : Float) (granularity : Nat) : Outcome SkipIndex := do
  build (.bloom (some (← rateWithin rate))) granularity

def tokenBloom (size hashes seed granularity : Nat) : Outcome SkipIndex := do
  let size ← within "tokenbf_v1 size" 256 1048576 size
  let hashes ← within "tokenbf_v1 hash functions" 1 10 hashes
  build (.tokenBloom size hashes seed) granularity

def ngramBloom (ngram size hashes seed granularity : Nat) : Outcome SkipIndex := do
  let ngram ← within "ngrambf_v1 ngram size" 1 10 ngram
  let size ← within "ngrambf_v1 size" 256 1048576 size
  let hashes ← within "ngrambf_v1 hash functions" 1 10 hashes
  build (.ngramBloom ngram size hashes seed) granularity

def set (rows granularity : Nat) : Outcome SkipIndex := do
  build (.set (← within "set max rows" 0 1000000 rows)) granularity

/-! ## Text -/

def callText (name : String) (arguments : List Nat) : String :=
  name ++ "(" ++ ", ".intercalate (arguments.map toString) ++ ")"

def typeText (i : SkipIndex) : String :=
  match i.kind with
  | .minmax => "minmax"
  | .bloom none => "bloom_filter"
  | .bloom (some rate) => "bloom_filter(" ++ Number.plainFloat rate ++ ")"
  | .tokenBloom size hashes seed => callText "tokenbf_v1" [size, hashes, seed]
  | .ngramBloom ngram size hashes seed => callText "ngrambf_v1" [ngram, size, hashes, seed]
  | .set rows => callText "set" [rows]

def render (i : SkipIndex) : String :=
  "TYPE " ++ i.typeText ++ " GRANULARITY " ++ toString i.granularity

end SkipIndex

end ColumnStore
