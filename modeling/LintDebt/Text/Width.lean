import LintDebt.Text.WidthTable

/-!
# Display width

How many columns a text takes on a terminal.  Most characters take a number of columns of their
own; some sequences are drawn as one sign, so a text is read from its end, with a note of what
follows.

* `LintDebt.Text.charWidth`: the columns of a character alone.
* `LintDebt.Text.Follow`, `Context`: what is noted about the character that follows.
* `LintDebt.Text.advance`: the columns that a character adds in front of a text.
* `LintDebt.Text.displayWidth`: the columns of a text.
-/

namespace LintDebt.Text

open WidthTable

/-! ## Single characters -/

/-- Whether a code point belongs to a control character. -/
def isControlCode (n : Nat) : Bool :=
  n < 0x20 || (0x7F ≤ n && n < 0xA0)

/-- The columns of a code point that is no control character. -/
def codeWidth (n : Nat) : Nat :=
  if n < 0x7F then 1
  else if n = 0x17A4 then 2
  else if n = 0x17D8 then 3
  else if inRanges zeroWidth n then 0
  else if inRanges wide n then 2
  else 1

/-- The columns of a character alone; a control character takes none. -/
def charWidth (c : Char) : Nat :=
  if isControlCode c.toNat then 0 else codeWidth c.toNat

/-! ## What follows -/

/-- What is noted about the text that follows, as far as it can change the width of what stands
before it.  `joined` means that a zero-width joiner stands in front. -/
inductive Follow where
  | plain
  | lineFeed
  | skinTone
  | regional
  | regionals
  | emoji
  | joinedEmoji
  | joinedKeycap
  | joinedRegional
  | joinedRegionalsEven
  | joinedRegionalsOdd
  | joinedTags (letters digits : Nat)
  | alef
  | lamed
  | joinedLamed
  | ya
  | joinedYa
  | iBeforeYa
  | tifinagh
  | joinedTifinagh
  | tifinaghJoiner
  | lisuTone
  | orkhonI
  | joinedOrkhonI
  | coengLetter
  | kiratE
  | kiratAi
  deriving DecidableEq, Repr

/-- Which selector of presentation stands right behind a character. -/
inductive Selector where
  | absent
  | text
  | emoji
  deriving DecidableEq, Repr

/-- What is noted about the text behind a character. -/
structure Context where
  follow : Follow := .plain
  selector : Selector := .absent
  deriving DecidableEq, Repr

namespace Follow

/-- Whether marks that are ignored by default may stand in front without breaking a ligature. -/
def isTransparent : Follow → Bool
  | .lamed | .joinedLamed | .ya | .joinedYa | .iBeforeYa | .tifinagh | .joinedTifinagh
  | .tifinaghJoiner | .lisuTone | .orkhonI | .joinedOrkhonI | .coengLetter => true
  | _ => false

/-- Whether what follows is still noted behind a selector of presentation. -/
def outlivesSelector : Follow → Bool
  | .alef | .joinedEmoji | .joinedKeycap => true
  | f => f.isTransparent

/-- Whether what follows is an emoji that a joiner ties to what stands before it. -/
def isJoinedEmoji : Follow → Bool
  | .joinedEmoji | .joinedKeycap => true
  | _ => false

/-- What is noted when a joiner stands in front of a letter. -/
def withJoiner : Follow → Follow
  | .lamed => .joinedLamed
  | .ya => .joinedYa
  | .tifinagh => .joinedTifinagh
  | .orkhonI => .joinedOrkhonI
  | f => f

/-- What is noted about a code point. -/
def ofCode (n : Nat) : Follow :=
  if n < 0xA1 then if n = 0x0A then .lineFeed else .plain
  else if n = 0x5DC then .lamed
  else if inRanges WidthTable.alef n then .alef
  else if n = 0x1A10 then .ya
  else if inRanges WidthTable.coengLetter n then .coengLetter
  else if inRanges WidthTable.tifinagh n then .tifinagh
  else if n = 0xA4FC ∨ n = 0xA4FD then .lisuTone
  else if n = 0x10C03 then .orkhonI
  else if n = 0x16D67 then .kiratE
  else if n = 0x16D68 then .kiratAi
  else if 0x1F1E6 ≤ n ∧ n ≤ 0x1F1FF then .regional
  else if 0x1F3FB ≤ n ∧ n ≤ 0x1F3FF then .skinTone
  else if inRanges WidthTable.emoji n then .emoji
  else .plain

end Follow

/-! ## Sequences drawn as one sign -/

/-- The zero-width joiner. -/
def joiner : Nat := 0x200D

/-- Whether a code point is a regional indicator. -/
def isRegional (n : Nat) : Bool :=
  0x1F1E6 ≤ n && n ≤ 0x1F1FF

/-- Whether a code point takes no column and lets Arabic letters join across it. -/
def joinsAcross (n : Nat) : Bool :=
  codeWidth n == 0 && !inRanges zeroWidthJoining n

/-- What a code point adds when it belongs to one sign with what follows, and what is noted then. -/
def sequenceStep? (n : Nat) : Follow → Option (Int × Follow)
  | .alef =>
    if inRanges lam n then some (0, .plain)
    else if joinsAcross n then some (0, .alef)
    else none
  | .joinedLamed => if n = 0x5D0 then some (0, .plain) else none
  | .coengLetter => if n = 0x17D2 then some (-1, .plain) else none
  | .joinedYa => if n = 0x1A17 then some (0, .iBeforeYa) else none
  | .iBeforeYa => if n = 0x1A15 then some (0, .plain) else none
  | .tifinagh => if n = 0x2D7F then some (1, .tifinaghJoiner) else none
  | .joinedTifinagh =>
    if n = 0x2D7F then some (1, .tifinaghJoiner)
    else if inRanges WidthTable.tifinagh n then some (0, .plain)
    else none
  | .tifinaghJoiner => if inRanges WidthTable.tifinagh n then some (-1, .plain) else none
  | .lisuTone => if 0xA4F8 ≤ n ∧ n ≤ 0xA4FB then some (0, .plain) else none
  | .joinedOrkhonI => if n = 0x10C32 then some (0, .plain) else none
  | .kiratE =>
    if n = 0x16D63 ∨ n = 0x16D69 then some (0, .plain)
    else if n = 0x16D67 then some (0, .kiratAi)
    else none
  | .kiratAi => if n = 0x16D63 then some (0, .plain) else none
  | .skinTone =>
    if inRanges modifierBase n then some (0, .emoji)
    else if n = joiner then some (0, .joinedEmoji)
    else none
  | .emoji => if n = joiner then some (0, .joinedEmoji) else none
  | .regional => if isRegional n then some (1, .regionals) else none
  | .regionals =>
    if isRegional n then some (1, .regionals)
    else if n = joiner then some (0, .joinedEmoji)
    else none
  | .joinedEmoji =>
    if n = 0x20E3 then some (0, .joinedKeycap)
    else if isRegional n then some (1, .joinedRegional)
    else if 0x1F3FB ≤ n ∧ n ≤ 0x1F3FF then some (0, .skinTone)
    else if n = 0xE007F then some (0, .joinedTags 0 0)
    else if inRanges WidthTable.emoji n then some (0, .emoji)
    else none
  | .joinedRegional => if isRegional n then some (-1, .joinedRegionalsEven) else none
  | .joinedRegionalsEven =>
    if isRegional n then some (3, .joinedRegionalsOdd)
    else if n = joiner then some (0, .joinedEmoji)
    else none
  | .joinedRegionalsOdd =>
    if isRegional n then some (-1, .joinedRegionalsEven)
    else if n = joiner then some (0, .joinedEmoji)
    else none
  | .joinedTags letters digits =>
    if 0xE0061 ≤ n ∧ n ≤ 0xE007A ∧ letters < 6 ∧ digits = 0 then
      some (0, .joinedTags (letters + 1) digits)
    else if 0xE0030 ≤ n ∧ n ≤ 0xE0039 ∧ digits < 3 ∧ letters ≤ 3 then
      some (0, .joinedTags letters (digits + 1))
    else if n = 0x1F3F4 ∧ (3 ≤ letters ∨ digits = 3) then some (0, .emoji)
    else none
  | _ => none

/-- What is noted when a selector stands in front of a text. -/
def Context.select (next : Context) (selector : Selector) : Context :=
  ⟨if next.follow.outlivesSelector then next.follow else .plain, selector⟩

/-- The columns that a code point adds in front of a text, and what is noted then, once the
selectors of presentation have had their say. -/
def advanceCode (n : Nat) (next : Context) : Int × Context :=
  if n ≤ 0xA0 then
    if n = 0x0D ∧ next = ⟨.lineFeed, .absent⟩ then (0, {})
    else (1, { follow := Follow.ofCode n })
  else if n = 0xFE0F then (0, next.select .emoji)
  else if n = 0xFE0E then (0, next.select .text)
  else if next.selector = .text ∧ inRanges textBase n then (1, {})
  else if next.follow.isTransparent && n == joiner then (0, { follow := next.follow.withJoiner })
  else if next.follow.isTransparent && inRanges ignorableMark n then (0, { follow := next.follow })
  else
    match sequenceStep? n next.follow with
    | some (columns, follow) => (columns, { follow })
    | none => (codeWidth n, { follow := Follow.ofCode n })

/-- The columns that a character adds in front of a text, and what is noted then. -/
def advance (c : Char) (next : Context) : Int × Context :=
  let n := c.toNat
  if next.selector = .emoji then
    if inRanges emojiBase n then
      (if next.follow.isJoinedEmoji then 0 else 2, { follow := .emoji })
    else
      advanceCode n { follow := if next.follow.outlivesSelector then next.follow else .plain }
  else advanceCode n next

/-- The columns of a text, and what is noted at its start. -/
def measure (s : List Char) : Int × Context :=
  s.foldr (fun c (columns, next) =>
    let (added, context) := advance c next
    (columns + added, context)) (0, {})

/-- The columns that a text takes. -/
def displayWidth (s : List Char) : Nat :=
  (measure s).1.toNat

@[simp] theorem displayWidth_nil : displayWidth [] = 0 := rfl

end LintDebt.Text
