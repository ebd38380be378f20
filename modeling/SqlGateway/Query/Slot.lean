import SqlGateway.Number.Layout
import SqlGateway.Number.Numeral
import SqlGateway.Text.Search

/-!
# Slots and aliases

The nesting of a selection, level by level, and the aliases of columns that lead into it. A slot
stands for one selection of fields of one table; slots are numbered on each level across all
parents, so a level and a number name exactly one. Every selected column carries an alias that says
where its values go: the nesting level and the slot on that level of the selection that asked for
it, and the name it has there. `L2~~11**total` is the column `total` of slot 11 on level 2.
-/
namespace SqlGateway.Query

open Text Number

/-- A member of a selection: a column, or a slot one level down. -/
inductive SlotEntry where
  | field (name : String)
  | child (slot : Nat)
  deriving DecidableEq, Repr

structure Slot where
  table : String
  /-- The key of its objects inside the parent. -/
  outputName : String
  nested : Bool
  /-- The number of the parent one level up. -/
  parent : Option Nat
  entries : List SlotEntry
  deriving DecidableEq, Repr

structure Slots where
  levels : List (List Slot)
  deriving DecidableEq, Repr

namespace Slots

def empty : Slots := ⟨[]⟩

def level (s : Slots) (n : Nat) : List Slot := (s.levels[n]?).getD []

def get? (s : Slots) (level number : Nat) : Option Slot := (s.level level)[number]?

/-- Adds a slot at the end of a level. Its number is the size of the level before. -/
def add (s : Slots) (level : Nat) (slot : Slot) : Slots :=
  let missing := level + 1 - s.levels.length
  ⟨(s.levels ++ List.replicate missing []).modify level (· ++ [slot])⟩

/-- Adds an entry at the end of a slot. -/
def addEntry (s : Slots) (level number : Nat) (entry : SlotEntry) : Slots :=
  ⟨s.levels.modify level fun slots =>
    slots.modify number fun slot => { slot with entries := slot.entries ++ [entry] }⟩

def maxLevel (s : Slots) : Nat := s.levels.length - 1

def isNested (s : Slots) (level number : Nat) : Bool := (s.get? level number).any (·.nested)

end Slots

structure Alias where
  level : Nat
  slot : Nat
  name : String
  deriving DecidableEq, Repr

namespace Alias

def levelMark : List Char := ['L']
def slotMark : List Char := ['~', '~']
def nameMark : List Char := ['*', '*']

def encodeChars (a : Alias) : List Char :=
  levelMark ++ decimalDigits a.level ++ slotMark ++ decimalDigits a.slot ++ nameMark ++
    a.name.toList

def encode (a : Alias) : String := String.ofList a.encodeChars

def decodeChars? (cs : List Char) : Option Alias := do
  let rest ← dropFront? levelMark cs
  let (level, rest) ← splitOnce slotMark rest
  let (slot, name) ← splitOnce nameMark rest
  return ⟨← unsigned64? level, ← unsigned64? slot, String.ofList name⟩

def decode? (label : String) : Option Alias := decodeChars? label.toList

/-- The name inside an alias; a label that is none stands for itself. -/
def strip (label : String) : String :=
  match decode? label with
  | some a => a.name
  | none => label

end Alias

end SqlGateway.Query
