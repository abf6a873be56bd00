import AiterCommerce.Encoding.Delimited
import AiterCommerce.Server.Mcp

namespace AiterCommerce.Server.Mcp

open AiterCommerce.Core Concurrent Encoding.Json
open Encoding.Delimited (unlines)

/-- What a read of standard input brings: a line, with the readings of the clock while it is
answered, or a failure. -/
inductive Read
  | line (text : List Char) (created completed : Int64)
  | failed

def handleParseError (err : String) : Value := error none (-32700) ("parse error: " ++ err)

section Main

variable (lib : Library) (st : AppState) (fromStr : List Char → Except String Value)

def handleLine (text : List Char) (created completed : Int64) :
    Prog appSignature (Option Value) :=
  if trim text = [] then pure none
  else
    match fromStr text with
    | .error err => pure (some (handleParseError err))
    | .ok request => handleRequest lib st request created completed

def main : List Read → Prog appSignature (List Value)
  | [] | .failed :: _ => pure []
  | .line text created completed :: reads =>
      Prog.bind (handleLine lib st fromStr text created completed) (fun response =>
        Prog.bind (main reads) (fun responses => pure (response.toList ++ responses)))

end Main

def stdout (responses : List Value) : List Char := unlines '\n' (responses.map Value.chars)

section Run

variable {lib : Library} {st : AppState} {fromStr : List Char → Except String Value}

theorem run_main_line {text : List Char} {created completed : Int64} {reads : List Read}
    {d d' : Data} {response : Option Value}
    (h : (handleLine lib st fromStr text created completed).run Op.exec d = (response, d')) :
    (main lib st fromStr (.line text created completed :: reads)).run Op.exec d =
      (response.toList ++ ((main lib st fromStr reads).run Op.exec d').1,
        ((main lib st fromStr reads).run Op.exec d').2) := by
  rw [main, Prog.run_bind, h, Prog.run_bind]
  rfl

/-- What is read first is answered first, and leaves its data to the rest. -/
theorem run_main_append {reads reads' : List Read} (h : .failed ∉ reads) (d : Data) :
    (main lib st fromStr (reads ++ reads')).run Op.exec d =
      (((main lib st fromStr reads).run Op.exec d).1 ++
        ((main lib st fromStr reads').run Op.exec
          ((main lib st fromStr reads).run Op.exec d).2).1,
        ((main lib st fromStr reads').run Op.exec
          ((main lib st fromStr reads).run Op.exec d).2).2) := by
  induction reads generalizing d with
  | nil => rfl
  | cons read reads ih =>
      obtain ⟨hread, hreads⟩ := not_or.mp (List.mem_cons.not.mp h)
      cases read with
      | failed => exact absurd rfl hread
      | line text created completed =>
          rw [List.cons_append, run_main_line rfl, run_main_line rfl, ih hreads,
            List.append_assoc]

end Run

end AiterCommerce.Server.Mcp
