/-!
# Entries in key order

A list of key and value pairs in ascending order of key, each key once. Writing a key again replaces
its value.
-/

set_option autoImplicit false

namespace PowerBench

/-- Key and value pairs in ascending order of key. -/
abbrev Entries (α : Type) := List (String × α)

namespace Entries

/-- The entries with `k` set to `v`. -/
def insert {α : Type} (k : String) (v : α) : Entries α → Entries α
  | [] => [(k, v)]
  | (k', v') :: rest =>
    if k < k' then (k, v) :: (k', v') :: rest
    else if k = k' then (k, v) :: rest
    else (k', v') :: insert k v rest

/-- Entries from pairs in any order; of two with one key the later counts. -/
def ofList {α : Type} (pairs : List (String × α)) : Entries α :=
  pairs.foldl (fun es p => insert p.1 p.2 es) []

def get? {α : Type} (k : String) : Entries α → Option α
  | [] => none
  | (k', v) :: rest => if k = k' then some v else get? k rest

end Entries

end PowerBench
