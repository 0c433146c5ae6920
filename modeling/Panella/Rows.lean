import Mathlib.Data.List.Sort
import Panella.ClientWrite
import Panella.Lib.Fallible

/-!
# Rows on their way to a reader (`panella/panella_adapter.py`)

| here | there |
| --- | --- |
| `resultsOf`, `memoryOf` | `payload.get("results") or []`, `sr.get("memory") or {}` in the loops of the adapter |
| `readRow`, `Deployment.normalize` | `_normalize_hit` (:919-969), from the JSON object on |
| `GetReply`, `getDrawer` | `get_drawer` (:498-506) |
| `slice`, `sortedBy` | `xs[:k]`, `sorted(xs, key=..., reverse=True)` |

A reply of the store is any JSON value: rows whose tags are no list, whose metadata is no dict, results that are no
objects. Floats are a parameter (`Floats`), so what is proved holds of any arithmetic.
-/

namespace Panella

open PyJson

/-- What a call of the client raises. -/
inductive ClientErr
  | py (e : PyErr)
  /-- `OverflowError`. -/
  | overflow (message : String)
  /-- `TenantIsolationError`. -/
  | tenantIsolation (message : String)
  /-- What `httpx` raises, also from `raise_for_status`. -/
  | http (message : String)
deriving DecidableEq

/-- `except TypeError`. -/
def ClientErr.isTypeError : ClientErr → Bool
  | .py (.typeError _) => true
  | _ => false

/-- `except (TypeError, ValueError)`. -/
def ClientErr.isTypeOrValueError : ClientErr → Bool
  | .py e => e.isValueOrType
  | _ => false

/-- `except OverflowError`. -/
def ClientErr.isOverflow : ClientErr → Bool
  | .overflow _ | .py (.overflowError _) => true
  | _ => false

/-- The floats of the interpreter. -/
structure Floats (F : Type) where
  /-- `float(v)`. -/
  ofJson : Json → Except ClientErr F
  /-- A literal, or the quotient of two ints. -/
  lit : Rat → F
  negInf : F
  add : F → F → F
  mul : F → F → F
  lt : F → F → Bool
  le : F → F → Bool
  isFinite : F → Bool

/-! ## Lists, as Python cuts and sorts them -/

/-- `xs[:k]`. -/
def slice {α : Type} (xs : List α) (k : Int) : List α := xs.take (if k < 0 then xs.length + k else k).toNat

/-- `sorted(xs, key=key, reverse=True)`: equal keys keep their order. -/
def sortedBy {α F : Type} (fl : Floats F) (key : α → F) (xs : List α) : List α :=
  xs.insertionSort fun a b => fl.lt (key a) (key b) = false

theorem slice_sublist {α : Type} (xs : List α) (k : Int) : (slice xs k).Sublist xs := List.take_sublist _ _

theorem length_slice {α : Type} (xs : List α) {k : Int} (hk : 0 ≤ k) : ((slice xs k).length : Int) ≤ k := by
  have h : ¬ k < 0 := by omega
  simp only [slice, if_neg h, List.length_take]
  omega

theorem sortedBy_perm {α F : Type} (fl : Floats F) (key : α → F) (xs : List α) : (sortedBy fl key xs).Perm xs :=
  List.perm_insertionSort _ xs

/-! ## A row -/

/-- A `Hit` with the fields the read path orders rows by. -/
structure ReadHit (F : Type) extends Hit where
  createdAt : Json
  createdAtIso : Json
  /-- The key `score`, where it is set. -/
  score : Option F

/-- One element of a sequence handed to `dict`. A key that is no string goes, as nothing reads it. -/
def pairOf (i : Nat) : Json → Except PyErr (Option (String × Json))
  | .arr [.str k, v] => .ok (some (k, v))
  | .arr [.arr _, _] => .error (.typeError "unhashable type: 'list'")
  | .arr [.obj _, _] => .error (.typeError "unhashable type: 'dict'")
  | .arr [_, _] => .ok none
  | .arr xs => badLength xs.length
  | .str s =>
    match s.toList with
    | [k, v] => .ok (some (String.singleton k, .str (String.singleton v)))
    | cs => badLength cs.length
  | .obj [(k, _), (v, _)] => .ok (some (k, .str v))
  | .obj kvs => badLength kvs.length
  | _ => .error (.typeError ("cannot convert dictionary update sequence element #" ++ toString i ++ " to a sequence"))
where
  badLength (n : Nat) : Except PyErr (Option (String × Json)) :=
    .error (.valueError ("dictionary update sequence element #" ++ toString i ++ " has length " ++ toString n ++
      "; 2 is required"))

/-- `dict(pairs)`. -/
def dictOfPairs : Nat → Dict → List Json → Except PyErr Dict
  | _, acc, [] => .ok acc
  | i, acc, x :: xs =>
    match pairOf i x with
    | .error e => .error e
    | .ok none => dictOfPairs (i + 1) acc xs
    | .ok (some (k, v)) => dictOfPairs (i + 1) (Dict.set acc k v) xs

/-- `dict(v or {})`. -/
def toDict (v : Json) : Except PyErr Dict :=
  if v.truthy then
    match v with
    | .obj kvs => .ok kvs
    | .arr xs => dictOfPairs 0 [] xs
    | .str s => dictOfPairs 0 [] (s.toList.map fun c => .str (String.singleton c))
    | v => .error (.typeError ("'" ++ typeName v ++ "' object is not iterable"))
  else .ok []

/-- The reads of `_normalize_hit` that can raise. -/
def readRow (mem : Dict) : Except PyErr RawHit := do
  let metadata ← toDict (Dict.get mem "metadata")
  let tags ← listOrEmpty (Dict.get mem "tags")
  .ok
    { contentHash := Dict.get mem "content_hash", content := Dict.get mem "content", tags,
      memoryType := Dict.get mem "memory_type", metadata }

/-- `_normalize_hit`, of a row with these tags and this metadata. -/
def hitOf {F : Type} (d : Deployment) (mem : Dict) (raw : RawHit) : ReadHit F :=
  { normalizeHit d raw with
    createdAt := Dict.get mem "created_at", createdAtIso := Dict.get mem "created_at_iso", score := none }

/-- `_normalize_hit`. -/
def Deployment.normalize (d : Deployment) {F : Type} (mem : Dict) : Except PyErr (ReadHit F) :=
  (readRow mem).map (hitOf d mem)

/-! ## Replies -/

/-- `(resp.json() or {}).get("results") or []`, as the loops iterate over it. -/
def resultsOf (payload : Json) : Except PyErr (List Json) :=
  if payload.truthy then
    match payload with
    | .obj kvs => listOrEmpty (Dict.get kvs "results")
    | v => .error (.attributeError ("'" ++ typeName v ++ "' object has no attribute 'get'"))
  else .ok []

/-- The row of a result, where the loop does not pass over it. -/
def memoryOf : Json → Option Dict
  | .obj sr =>
    match Dict.get sr "memory" with
    | .obj (kv :: mem) => some (kv :: mem)
    | _ => none
  | _ => none

/-- What `GET /api/memories/{id}` answers. -/
inductive GetReply
  /-- 404. -/
  | notFound
  /-- Any other status that is no success, or no answer at all. -/
  | failed (e : ClientErr)
  | body (j : Json)

/-- `get_drawer`. -/
def getDrawer {F : Type} (d : Deployment) : GetReply → Except ClientErr (Option (ReadHit F))
  | .notFound => .ok none
  | .failed e => .error e
  | .body (.obj raw) =>
    if Dict.has raw "content_hash" then ((d.normalize raw).mapError .py).map some else .ok none
  | .body _ => .ok none

end Panella
