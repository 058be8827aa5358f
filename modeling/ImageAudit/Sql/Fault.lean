import ImageAudit.Bytes
import ImageAudit.Text.Utf8

/-! # Faults of queries

What keeps the rows of a query from being computed.
-/

namespace ImageAudit.Sql

/-- What is wrong with a query or with the file that it reads. -/
inductive Fault where
  /-- What is said about the named thing in the file makes no sense. -/
  | schema (name : Bytes)
  | tableMissing (name : Bytes)
  | columnMissing (name : Bytes)
  | ambiguous (name : Bytes)
  | functionMissing (name : Bytes)
  | argumentCount (function : Bytes)
  | collationMissing (name : Bytes)
  /-- Something stands where it must not. -/
  | misplaced (what : String)
  /-- Something that cannot be evaluated here. -/
  | unsupported (what : String)
  /-- A value that an operation cannot take. -/
  | value (what : String)
  | circular (name : Bytes)
  | tooLong
  /-- The file is broken. -/
  | storage (what : String)
  /-- A row of the result holds no bytes. -/
  | notBytes (row : Nat)
  deriving DecidableEq, Repr

def Fault.message : Fault → String
  | schema name => s!"malformed database schema ({Utf8.lossy name})"
  | tableMissing name => s!"no such table: {Utf8.lossy name}"
  | columnMissing name => s!"no such column: {Utf8.lossy name}"
  | ambiguous name => s!"ambiguous column name: {Utf8.lossy name}"
  | functionMissing name => s!"no such function: {Utf8.lossy name}"
  | argumentCount function => s!"wrong number of arguments to function {Utf8.lossy function}"
  | collationMissing name => s!"no such collation sequence: {Utf8.lossy name}"
  | misplaced what => s!"misuse of {what}"
  | unsupported what => s!"unsupported: {what}"
  | value what => what
  | circular name => s!"{Utf8.lossy name} is defined by itself"
  | tooLong => "query is too long"
  | storage what => what
  | notBytes row => s!"row #{row} holds no bytes"

abbrev Outcome := Except Fault

end ImageAudit.Sql
