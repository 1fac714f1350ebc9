/-
# Escape sequences

Sequences of bytes that a terminal takes as commands and does not show. They
begin with an escape character; what comes after it says how they end. A command
with parameters ends with a letter; a text for the device, a title and a message
end with the next escape, and a title with a bell too. Two control characters
break every sequence off.

Key definitions: `EscapeState`, `EscapeState.next`, `EscapeState.nextChar`.
-/

namespace Pseudocode

/-- Where in an escape sequence a byte stands. -/
inductive EscapeState where
  /-- In none. -/
  | ground
  | escape
  /-- After an escape and a mark. -/
  | marked
  /-- In a command with parameters, and after a mark in it. -/
  | command
  | markedCommand
  /-- Before a text for the device: at its start, in its parameters, and after a
  mark. -/
  | device
  | deviceParameters
  | markedDevice
  | deviceText
  | title
  | message
deriving Repr, DecidableEq, Inhabited

namespace EscapeState

/-- Whether bytes beyond ASCII belong to the sequence. -/
def takesText : EscapeState → Bool
  | deviceText => true
  | title => true
  | _ => false

/-- After an escape character: what sequence an ASCII character begins. -/
def begin (b : UInt8) : EscapeState :=
  if b < 0x20 || b = 0x7F then escape
  else if b < 0x30 then marked
  else if b = 0x50 then device
  else if b = 0x5B then command
  else if b = 0x5D then title
  else if b = 0x58 || b = 0x5E || b = 0x5F then message
  else ground

/-- The sequence that a lone byte beyond ASCII begins. -/
def beginHigh (b : UInt8) : EscapeState :=
  if b = 0x90 then device
  else if b = 0x9B then command
  else if b = 0x9D then title
  else if b = 0x98 || b = 0x9E || b = 0x9F then message
  else ground

/-- How an ASCII character that breaks nothing off goes on with a sequence. -/
def goOn (s : EscapeState) (b : UInt8) : EscapeState :=
  let isMark := 0x20 ≤ b && b < 0x30
  let isParameter := 0x30 ≤ b && b < 0x40
  let isLetter := 0x40 ≤ b && b < 0x7F
  match s with
  | ground => ground
  | escape => begin b
  | marked => if isParameter || isLetter then ground else marked
  | command => if isMark then markedCommand else if isLetter then ground else command
  | markedCommand => if isParameter || isLetter then ground else markedCommand
  | device =>
    if isMark then markedDevice
    else if isParameter then deviceParameters
    else if isLetter || (0x08 ≤ b && b < 0x0E) then deviceText
    else device
  | deviceParameters =>
    if isMark then markedDevice else if isLetter then deviceText else deviceParameters
  | markedDevice => if isParameter || isLetter then deviceText else markedDevice
  | deviceText => deviceText
  | title => if b = 0x07 then ground else title
  | message => message

/-- The state after a byte. -/
def next (s : EscapeState) (b : UInt8) : EscapeState :=
  if b = 0x18 || b = 0x1A then ground
  else if b = 0x1B then (if s = device then deviceText else escape)
  else if b < 0x80 then s.goOn b
  else if s.takesText then (if b = 0x9C then ground else s)
  else beginHigh b

/-- The state after the bytes of a character. -/
def nextChar (s : EscapeState) (c : Char) : EscapeState :=
  (String.utf8EncodeChar c).foldl next s

end EscapeState

end Pseudocode
