/-
# The width of text

How many columns a line of text takes on a terminal. An ASCII character takes
one, a control character none, and an escape sequence none. Beyond ASCII the
characters are taken in grapheme clusters: a cluster is as wide as its first
character, wide ones taking two columns, and what joins it may add to it.

Key definitions: `charWidth`, `lineWidth`.
-/
import Pseudocode.Text.EscapeSequence
import Pseudocode.Text.Grapheme

namespace Pseudocode

/-- The characters that take two columns. -/
def wideTable : SwitchTable := ⟨[
  0x1100, 0x1160, 0x231a, 0x231c, 0x2329, 0x232b, 0x23e9, 0x23ed, 0x23f0, 0x23f1, 0x23f3,
  0x23f4, 0x25fd, 0x25ff, 0x2614, 0x2616, 0x2648, 0x2654, 0x267f, 0x2680, 0x2693, 0x2694,
  0x26a1, 0x26a2, 0x26aa, 0x26ac, 0x26bd, 0x26bf, 0x26c4, 0x26c6, 0x26ce, 0x26cf, 0x26d4,
  0x26d5, 0x26ea, 0x26eb, 0x26f2, 0x26f4, 0x26f5, 0x26f6, 0x26fa, 0x26fb, 0x26fd, 0x26fe,
  0x2705, 0x2706, 0x270a, 0x270c, 0x2728, 0x2729, 0x274c, 0x274d, 0x274e, 0x274f, 0x2753,
  0x2756, 0x2757, 0x2758, 0x2795, 0x2798, 0x27b0, 0x27b1, 0x27bf, 0x27c0, 0x2b1b, 0x2b1d,
  0x2b50, 0x2b51, 0x2b55, 0x2b56, 0x2e80, 0x2e9a, 0x2e9b, 0x2ef4, 0x2f00, 0x2fd6, 0x2ff0,
  0x2ffc, 0x3000, 0x303f, 0x3041, 0x3097, 0x3099, 0x3100, 0x3105, 0x3130, 0x3131, 0x318f,
  0x3190, 0x31e4, 0x31f0, 0x321f, 0x3220, 0x3248, 0x3250, 0x4dc0, 0x4e00, 0xa48d, 0xa490,
  0xa4c7, 0xa960, 0xa97d, 0xac00, 0xd7a4, 0xf900, 0xfb00, 0xfe10, 0xfe1a, 0xfe30, 0xfe53,
  0xfe54, 0xfe67, 0xfe68, 0xfe6c, 0xff01, 0xff61, 0xffe0, 0xffe7, 0x16fe0, 0x16fe5, 0x16ff0,
  0x16ff2, 0x17000, 0x187f8, 0x18800, 0x18cd6, 0x18d00, 0x18d09, 0x1aff0, 0x1aff4, 0x1aff5,
  0x1affc, 0x1affd, 0x1afff, 0x1b000, 0x1b123, 0x1b132, 0x1b133, 0x1b150, 0x1b153, 0x1b155,
  0x1b156, 0x1b164, 0x1b168, 0x1b170, 0x1b2fc, 0x1f004, 0x1f005, 0x1f0cf, 0x1f0d0, 0x1f18e,
  0x1f18f, 0x1f191, 0x1f19b, 0x1f200, 0x1f203, 0x1f210, 0x1f23c, 0x1f240, 0x1f249, 0x1f250,
  0x1f252, 0x1f260, 0x1f266, 0x1f300, 0x1f321, 0x1f32d, 0x1f336, 0x1f337, 0x1f37d, 0x1f37e,
  0x1f394, 0x1f3a0, 0x1f3cb, 0x1f3cf, 0x1f3d4, 0x1f3e0, 0x1f3f1, 0x1f3f4, 0x1f3f5, 0x1f3f8,
  0x1f43f, 0x1f440, 0x1f441, 0x1f442, 0x1f4fd, 0x1f4ff, 0x1f53e, 0x1f54b, 0x1f54f, 0x1f550,
  0x1f568, 0x1f57a, 0x1f57b, 0x1f595, 0x1f597, 0x1f5a4, 0x1f5a5, 0x1f5fb, 0x1f650, 0x1f680,
  0x1f6c6, 0x1f6cc, 0x1f6cd, 0x1f6d0, 0x1f6d3, 0x1f6d5, 0x1f6d8, 0x1f6dc, 0x1f6e0, 0x1f6eb,
  0x1f6ed, 0x1f6f4, 0x1f6fd, 0x1f7e0, 0x1f7ec, 0x1f7f0, 0x1f7f1, 0x1f90c, 0x1f93b, 0x1f93c,
  0x1f946, 0x1f947, 0x1fa00, 0x1fa70, 0x1fa7d, 0x1fa80, 0x1fa89, 0x1fa90, 0x1fabe, 0x1fabf,
  0x1fac6, 0x1face, 0x1fadc, 0x1fae0, 0x1fae9, 0x1faf0, 0x1faf9, 0x20000, 0x2fffe, 0x30000,
  0x3fffe]⟩

/-- The pictures that take two columns. -/
def emojiTable : SwitchTable := ⟨[
  0x231a, 0x231c, 0x23e9, 0x23ed, 0x23f0, 0x23f1, 0x23f3, 0x23f4, 0x25fd, 0x25ff, 0x2614,
  0x2616, 0x2648, 0x2654, 0x267f, 0x2680, 0x2693, 0x2694, 0x26a1, 0x26a2, 0x26aa, 0x26ac,
  0x26bd, 0x26bf, 0x26c4, 0x26c6, 0x26ce, 0x26cf, 0x26d4, 0x26d5, 0x26ea, 0x26eb, 0x26f2,
  0x26f4, 0x26f5, 0x26f6, 0x26fa, 0x26fb, 0x26fd, 0x26fe, 0x2705, 0x2706, 0x270a, 0x270c,
  0x2728, 0x2729, 0x274c, 0x274d, 0x274e, 0x274f, 0x2753, 0x2756, 0x2757, 0x2758, 0x2795,
  0x2798, 0x27b0, 0x27b1, 0x27bf, 0x27c0, 0x2b1b, 0x2b1d, 0x2b50, 0x2b51, 0x2b55, 0x2b56,
  0x1f004, 0x1f005, 0x1f0cf, 0x1f0d0, 0x1f18e, 0x1f18f, 0x1f191, 0x1f19b, 0x1f1e6, 0x1f200,
  0x1f201, 0x1f202, 0x1f21a, 0x1f21b, 0x1f22f, 0x1f230, 0x1f232, 0x1f237, 0x1f238, 0x1f23b,
  0x1f250, 0x1f252, 0x1f300, 0x1f321, 0x1f32d, 0x1f336, 0x1f337, 0x1f37d, 0x1f37e, 0x1f394,
  0x1f3a0, 0x1f3cb, 0x1f3cf, 0x1f3d4, 0x1f3e0, 0x1f3f1, 0x1f3f4, 0x1f3f5, 0x1f3f8, 0x1f43f,
  0x1f440, 0x1f441, 0x1f442, 0x1f4fd, 0x1f4ff, 0x1f53e, 0x1f54b, 0x1f54f, 0x1f550, 0x1f568,
  0x1f57a, 0x1f57b, 0x1f595, 0x1f597, 0x1f5a4, 0x1f5a5, 0x1f5fb, 0x1f650, 0x1f680, 0x1f6c6,
  0x1f6cc, 0x1f6cd, 0x1f6d0, 0x1f6d3, 0x1f6d5, 0x1f6d8, 0x1f6dc, 0x1f6e0, 0x1f6eb, 0x1f6ed,
  0x1f6f4, 0x1f6fd, 0x1f7e0, 0x1f7ec, 0x1f7f0, 0x1f7f1, 0x1f90c, 0x1f93b, 0x1f93c, 0x1f946,
  0x1f947, 0x1fa00, 0x1fa70, 0x1fa7d, 0x1fa80, 0x1fa89, 0x1fa90, 0x1fabe, 0x1fabf, 0x1fac6,
  0x1face, 0x1fadc, 0x1fae0, 0x1fae9, 0x1faf0, 0x1faf9]⟩

/-- The columns that a character of a class takes. -/
def charWidth (k : GraphemeClass) (c : Char) : Nat :=
  match k with
  | .control => 0
  | .extend => 0
  | .joiner => 0
  | .flag => 2
  | .picture => if emojiTable.contains c then 2 else 1
  | _ =>
    if c = '\u2e3a' then 3
    else if c = '\u2e3b' then 4
    else if wideTable.contains c then 2
    else 1

/-- A cluster with its width so far. -/
structure WideCluster where
  start : GraphemeClass
  state : Cluster
  width : Nat
deriving Inhabited

/-- The cluster of one character. -/
def WideCluster.first (c : Char) : WideCluster :=
  let k := graphemeClass c
  ⟨k, .first k, charWidth k c⟩

/-- The cluster with a character that goes on with it. After a picture only the
marks count that ask for a narrow or a wide one; flags and Korean syllables are
as wide as they begin. -/
def WideCluster.push (w : WideCluster) (c : Char) : WideCluster :=
  let k := graphemeClass c
  { w with
    state := w.state.push k
    width := match w.start with
      | .picture => if c = '\ufe0e' then 1 else if c = '\ufe0f' then 2 else w.width
      | .flag => w.width
      | .front => w.width
      | _ => w.width + charWidth k c }

/-- Where a line is being measured. -/
inductive WidthMode where
  | outside (s : EscapeState)
  | cluster (w : WideCluster)
deriving Inhabited

namespace WidthMode

/-- Takes a character outside clusters: the columns that it takes at once, and how
to go on. Beyond ASCII a character begins a cluster, also in the middle of a
sequence that takes no such text. -/
def enter (s : EscapeState) (c : Char) : Nat × WidthMode :=
  if 0x80 ≤ c.toNat && !s.takesText then (0, .cluster (.first c))
  else (if s = .ground && ' ' ≤ c && c ≤ '~' then 1 else 0, .outside (s.nextChar c))

/-- Takes a character. -/
def step (m : WidthMode) (c : Char) : Nat × WidthMode :=
  match m with
  | outside s => enter s c
  | cluster w =>
    if w.state.joins (graphemeClass c) then (0, .cluster (w.push c))
    else (w.width + (enter .ground c).1, (enter .ground c).2)

/-- The columns of what is still open at the end of a line. -/
def rest : WidthMode → Nat
  | cluster w => w.width
  | _ => 0

end WidthMode

/-- The columns of the characters of a line. -/
def widthFrom : WidthMode → List Char → Nat
  | m, [] => m.rest
  | m, c :: cs => (m.step c).1 + widthFrom (m.step c).2 cs

/-- The columns that a line takes. -/
def lineWidth (cs : List Char) : Nat := widthFrom (.outside .ground) cs

end Pseudocode
