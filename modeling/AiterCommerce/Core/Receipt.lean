import AiterCommerce.Core.Amount
import Mathlib.Data.List.Range

namespace AiterCommerce.Core

structure Receipt where
  id : String
  agentId : String
  orderId : String
  amount : Amount
  issuedAt : Int64
  deriving DecidableEq

structure AuditEntry (T : Type) where
  seq : Nat
  entry : T
  deriving DecidableEq

/-- A log whose only operation is `push`: the entries carry the numbers from
zero on, in append order. The counter is the length of an in-memory vector, so
its 64 bits are never exhausted. -/
structure AppendOnlyLog (T : Type) where
  entries : List (AuditEntry T)
  nextSeq : Nat
  sequenced : entries.map AuditEntry.seq = List.range nextSeq

namespace AppendOnlyLog

variable {T : Type}

def new : AppendOnlyLog T := ⟨[], 0, rfl⟩

def push (log : AppendOnlyLog T) (entry : T) : Nat × AppendOnlyLog T :=
  (log.nextSeq,
    { entries := log.entries ++ [⟨log.nextSeq, entry⟩]
      nextSeq := log.nextSeq + 1
      sequenced := by simp [log.sequenced, List.range_succ] })

def len (log : AppendOnlyLog T) : Nat := log.entries.length

theorem nextSeq_eq_len (log : AppendOnlyLog T) : log.nextSeq = log.len := by
  have h := congrArg List.length log.sequenced
  simpa [len] using h.symm

@[simp] theorem push_entries (log : AppendOnlyLog T) (entry : T) :
    (log.push entry).2.entries = log.entries ++ [⟨log.nextSeq, entry⟩] := rfl

end AppendOnlyLog

end AiterCommerce.Core
