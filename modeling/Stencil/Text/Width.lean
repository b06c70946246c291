import Stencil.Text.Width.Classes

/-!
# Display width

The number of columns a text takes on a terminal. One character alone takes no, one or two columns
(`columns`). In a text some neighbours are drawn as one sign: an emoji and its skin tone, letters
that form a ligature, a base and the selector of its style. So `width` measures a text from its
last character to its first, and each character is measured by what stands to its right.
-/

namespace Stencil.Text

namespace Width

/-- A letter that can form a ligature with a letter before it. -/
inductive Ligature where
  /-- Arabic alef, after lam. -/
  | alef
  /-- Hebrew lamed, after alef and a joiner. -/
  | lamed
  /-- Buginese ya, after the vowel sign i and a joiner. -/
  | ya
  /-- Buginese ya with its joiner and the vowel sign i, after the letter a. -/
  | vowelYa
  /-- A Tifinagh consonant, after another one and a joiner. -/
  | tifinagh
  /-- A Tifinagh consonant with the joiner sign of its script. -/
  | joinedTifinagh
  /-- A Lisu tone letter, after another one. -/
  | lisuTone
  /-- The Old Turkic letter i, after the letter ec and a joiner. -/
  | orkhonI
  /-- A Khmer letter that the sign coeng turns into a subscript. -/
  | khmer
deriving DecidableEq

/-- What stands to the right of a character, as far as it can change the character's width. -/
inductive Link where
  /-- Nothing that matters. -/
  | none
  /-- A line feed. -/
  | lineFeed
  /-- Something shown as an emoji. -/
  | emoji
  /-- A skin tone. -/
  | tone
  /-- One flag letter. -/
  | flagLetter
  /-- Several flag letters. -/
  | flagLetters
  /-- A joiner and an emoji. -/
  | joinedEmoji
  /-- An enclosing keycap, a joiner and an emoji. -/
  | joinedKeycap
  /-- Flag letters, a joiner and an emoji. -/
  | joinedFlags (even : Bool)
  /-- A letter that can form a ligature, perhaps after a joiner. -/
  | letter (kind : Ligature) (joined : Bool)
deriving DecidableEq

/-- The style that a selector asks for. -/
inductive Style where
  | emoji
  | text
deriving DecidableEq

/-- The right-hand context of a character. -/
structure Context where
  /-- What stands there. -/
  link : Link := .none
  /-- A style selector that stands before it. -/
  selector : Option Style := .none

/-- The two code points that are read as a joiner and as a selector of each style. -/
def joiner : Nat := 0x200D
def emojiSelector : Nat := 0xFE0F
def textSelector : Nat := 0xFE0E

/-- Whether `n` lies between two code points. -/
def between (first last n : Nat) : Bool := first ≤ n && n ≤ last

/-- Whether `n` is a letter of a flag. -/
def isFlagLetter (n : Nat) : Bool := between 0x1F1E6 0x1F1FF n

/-- Whether `n` is a skin tone. -/
def isTone (n : Nat) : Bool := between 0x1F3FB 0x1F3FF n

/-- Whether `n` is a Tifinagh consonant. -/
def isTifinagh (n : Nat) : Bool := between 0x2D31 0x2D65 n || n == 0x2D6F

/-- Whether `n` is the Arabic letter lam or a variant of it. -/
def isLam (n : Nat) : Bool :=
  n == 0x644 || between 0x6B5 0x6B8 n || n == 0x76A || n == 0x8A6 || n == 0x8C7

/-- Whether `n` is the Arabic letter alef or a variant of it. -/
def isAlef (n : Nat) : Bool :=
  [0x622, 0x623, 0x625, 0x627, 0x671, 0x672, 0x673, 0x675, 0x773, 0x774].contains n ||
    between 0x870 0x882 n

/-- Whether the sign coeng turns the Khmer letter `n` into a subscript. -/
def isSubscriptKhmer (n : Nat) : Bool :=
  between 0x1780 0x1782 n || between 0x1784 0x1787 n || between 0x1789 0x178C n ||
    between 0x178E 0x1793 n || between 0x1795 0x1798 n || between 0x179B 0x179D n ||
    [0x17A0, 0x17A2, 0x17A7, 0x17AB, 0x17AC, 0x17AF].contains n

/-- Whether `n` may stand inside a ligature without being seen. -/
def isTransparent (n : Nat) : Bool :=
  n == 0x34F || between 0x17B4 0x17B5 n || between 0x180B 0x180D n || n == 0x180F ||
    between 0xFE00 0xFE0F n || between 0xE0100 0xE01EF n

/-- The columns of a printable character on its own. -/
def printable (c : Char) : Nat :=
  if c.toNat == 0x17D8 then 3
  else if c.toNat == 0x17A4 then 2
  else if zero.contains c then 0
  else if wide.contains c then 2
  else 1

/-- What a character on its own offers to the character before it. -/
def linkOf (c : Char) : Link :=
  let n := c.toNat
  if isTone n then .tone
  else if isFlagLetter n then .flagLetter
  else if emoji.contains c then .emoji
  else if isAlef n then .letter .alef false
  else if n == 0x5DC then .letter .lamed false
  else if n == 0x1A10 then .letter .ya false
  else if isTifinagh n then .letter .tifinagh false
  else if between 0xA4FC 0xA4FD n then .letter .lisuTone false
  else if n == 0x10C03 then .letter .orkhonI false
  else if isSubscriptKhmer n then .letter .khmer false
  else .none

/-- A character measured on its own, with the context it leaves to the one before it. -/
def alone (c : Char) : Int × Context :=
  if c.toNat == emojiSelector then (0, ⟨.none, some .emoji⟩)
  else if c.toNat == textSelector then (0, ⟨.none, some .text⟩)
  else (printable c, ⟨linkOf c, .none⟩)

/-- The context without its selector: only a ligature outlives one. -/
def Context.forget (context : Context) : Context :=
  match context.link with
  | .letter kind joined => ⟨.letter kind joined, .none⟩
  | _ => {}

/-- The context after a selector has been put in front of it. -/
def Context.select (style : Style) (context : Context) : Context :=
  match context.link, style with
  | .letter kind joined, _ => ⟨.letter kind joined, some style⟩
  | .joinedEmoji, .emoji => ⟨.joinedEmoji, some style⟩
  | .joinedKeycap, .emoji => ⟨.joinedKeycap, some style⟩
  | _, _ => ⟨.none, some style⟩

/-- A character that forms one sign with the letter to its right. -/
def ligature (c : Char) (kind : Ligature) (joined : Bool) : Option (Int × Context) :=
  let n := c.toNat
  match kind with
  | .alef =>
    if isLam n then some (0, {})
    else if zero.contains c && n != 0x200C && n != joiner then
      some (0, ⟨.letter .alef false, .none⟩)
    else none
  | .lamed => if joined && n == 0x5D0 then some (0, {}) else none
  | .ya => if joined && n == 0x1A17 then some (0, ⟨.letter .vowelYa false, .none⟩) else none
  | .vowelYa => if n == 0x1A15 then some (0, {}) else none
  | .tifinagh =>
    if n == 0x2D7F then some (1, ⟨.letter .joinedTifinagh false, .none⟩)
    else if joined && isTifinagh n then some (0, {})
    else none
  | .joinedTifinagh => if isTifinagh n then some (-1, {}) else none
  | .lisuTone => if between 0xA4F8 0xA4FB n then some (0, {}) else none
  | .orkhonI => if joined && n == 0x10C32 then some (0, {}) else none
  | .khmer => if n == 0x17D2 then some (-1, {}) else none

/-- A character that forms one sign with what stands to its right. -/
def joining (c : Char) (link : Link) : Option (Int × Context) :=
  let n := c.toNat
  match link with
  | .tone => if toneable.contains c then some (0, ⟨.emoji, .none⟩)
    else if n == joiner then some (0, ⟨.joinedEmoji, .none⟩) else none
  | .emoji => if n == joiner then some (0, ⟨.joinedEmoji, .none⟩) else none
  | .flagLetter => if isFlagLetter n then some (1, ⟨.flagLetters, .none⟩) else none
  | .flagLetters =>
    if isFlagLetter n then some (1, ⟨.flagLetters, .none⟩)
    else if n == joiner then some (0, ⟨.joinedEmoji, .none⟩) else none
  | .joinedEmoji =>
    if n == 0x20E3 then some (0, ⟨.joinedKeycap, .none⟩)
    else if isFlagLetter n then some (1, ⟨.joinedFlags false, .none⟩)
    else if isTone n then some (0, ⟨.tone, .none⟩)
    else if linkOf c == .emoji then some (0, ⟨.emoji, .none⟩) else none
  | .joinedFlags even =>
    if isFlagLetter n then
      if even then some (3, ⟨.joinedFlags false, .none⟩) else some (-1, ⟨.joinedFlags true, .none⟩)
    else if even && n == joiner then some (0, ⟨.joinedEmoji, .none⟩) else none
  | .letter kind joined =>
    if kind != .alef && n == joiner then some (0, ⟨.letter kind true, .none⟩)
    else if kind != .alef && isTransparent n then some (0, ⟨link, .none⟩)
    else ligature c kind joined
  | _ => none

/-- A character without a selector to its right, measured by what stands there. -/
def linked (c : Char) (context : Context) : Int × Context :=
  if c.toNat ≤ 0xA0 then
    if c == '\n' then (1, ⟨.lineFeed, .none⟩)
    else if c == '\r' && context.link == .lineFeed then (0, {})
    else (1, {})
  else if context.link != .none && c.toNat == emojiSelector then (0, context.select .emoji)
  else if context.link != .none && c.toNat == textSelector then (0, context.select .text)
  else (joining c context.link).getD (alone c)

/-- A character measured by what stands to its right: the columns it adds, which may be negative
when it shrinks its neighbour, and the context it leaves to the character before it. -/
def step (c : Char) (context : Context) : Int × Context :=
  match context.selector with
  | some .emoji =>
    if selectable.contains c then
      (if context.link == .joinedEmoji || context.link == .joinedKeycap then 0 else 2,
        ⟨.emoji, .none⟩)
    else linked c context.forget
  | some .text =>
    if selectable.contains c && emoji.contains c && !between 0x1F200 0x1F2FF c.toNat then (1, {})
    else linked c context.forget
  | none => linked c context

/-- The columns of a text, and the context that it leaves to a character before it. -/
def measure : List Char → Int × Context
  | [] => (0, {})
  | c :: rest =>
    let (columns, context) := measure rest
    let (more, context) := step c context
    (columns + more, context)

end Width

/-- The columns of one character; a control character takes none. -/
def columns (c : Char) : Nat :=
  if c.toNat < 0x20 || Width.between 0x7F 0x9F c.toNat then 0
  else if c.toNat ≤ 0x7E then 1
  else Width.printable c

/-- The columns of a text. -/
def width (text : List Char) : Nat := (Width.measure text).1.toNat

/-- The columns of a text up to its first line break. -/
def firstLineWidth (text : String) : Nat :=
  let line := text.toList.takeWhile (· != '\n')
  width (line.reverse.dropWhile (· == '\r')).reverse

end Stencil.Text
