import Sagas.Json

/-!
# Statistics

Counters over everything that happened to saga instances.
-/

namespace Sagas

inductive Counter where
  | created
  | loaded
  | inserted
  | updated
  | deleted
  | unchanged
  | correlationMiss
  | conflict
  | conflictResolved
  deriving DecidableEq, Repr

def Counter.ofName? : String → Option Counter
  | "created" => some .created
  | "loaded" => some .loaded
  | "inserted" => some .inserted
  | "updated" => some .updated
  | "deleted" => some .deleted
  | "unchanged" => some .unchanged
  | "correlation_miss" => some .correlationMiss
  | "conflict" => some .conflict
  | "conflict_resolved" => some .conflictResolved
  | _ => none

structure Stats where
  created : Nat
  loaded : Nat
  inserted : Nat
  updated : Nat
  deleted : Nat
  unchanged : Nat
  correlationMisses : Nat
  conflicts : Nat
  conflictsResolved : Nat
  deriving DecidableEq, Repr

namespace Stats

def zero : Stats := ⟨0, 0, 0, 0, 0, 0, 0, 0, 0⟩

instance : Inhabited Stats := ⟨zero⟩

def record (s : Stats) : Counter → Stats
  | .created => { s with created := s.created + 1 }
  | .loaded => { s with loaded := s.loaded + 1 }
  | .inserted => { s with inserted := s.inserted + 1 }
  | .updated => { s with updated := s.updated + 1 }
  | .deleted => { s with deleted := s.deleted + 1 }
  | .unchanged => { s with unchanged := s.unchanged + 1 }
  | .correlationMiss => { s with correlationMisses := s.correlationMisses + 1 }
  | .conflict => { s with conflicts := s.conflicts + 1 }
  | .conflictResolved => { s with conflictsResolved := s.conflictsResolved + 1 }

def toJson (s : Stats) : Json :=
  .obj [("created", .int s.created), ("loaded", .int s.loaded), ("inserted", .int s.inserted),
    ("updated", .int s.updated), ("deleted", .int s.deleted), ("unchanged", .int s.unchanged),
    ("correlation_misses", .int s.correlationMisses), ("conflicts", .int s.conflicts),
    ("conflicts_resolved", .int s.conflictsResolved)]

end Stats

end Sagas
