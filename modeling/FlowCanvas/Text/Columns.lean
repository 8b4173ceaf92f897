import FlowCanvas.Text.WidthTable

/-!
# The width of text in columns

A terminal gives a character zero, one or two columns, and a text is not always as wide as its
characters together: emoji sequences, flags and some ligatures are drawn in less room than their
parts. Such a sequence is recognised from its end, so the width of a text is found by reading it
from right to left and remembering, in one small state, what stands to the right.

## Main definitions

* `charColumns` — the width of a character on its own; a control character has none.
* `Follower`, `Selectors`, `Ahead` — what stands to the right of a place, as far as it matters
  there.
* `Ahead.step` — the columns that one more character adds on the left.
* `columns`, `displayWidth` — the width of a text.
-/

namespace FlowCanvas

open WidthTable

/-- A scanner's memory of what stands to the right. -/
inductive Follower
  /-- Nothing that changes the width of what stands to its left. -/
  | plain
  /-- A line feed, which a carriage return joins. -/
  | lineFeed
  /-- An emoji two columns wide. -/
  | emoji
  /-- A skin tone, which colours the emoji on its left. -/
  | skinTone
  /-- One flag letter, or, if `many`, several. -/
  | flagLetter (many : Bool)
  /-- A zero width joiner and then an emoji. -/
  | joined
  /-- A keycap mark, a zero width joiner and then an emoji. -/
  | joinedKeycap
  /-- One flag letter, a zero width joiner and then an emoji. -/
  | joinedFlag
  /-- Several flag letters, a zero width joiner and then an emoji; an odd number of them if
  `odd`. -/
  | joinedFlags (odd : Bool)
  /-- The end of a tagged flag, `letters` tag letters of it read, a joiner and then an emoji. -/
  | joinedTagLetters (letters : Nat)
  /-- The same with `digits` tag digits read last. -/
  | joinedTagDigits (digits : Nat)
  /-- A letter that joins as an alef does. -/
  | alef
  /-- A Hebrew lamed, behind a joiner if `zwj`. -/
  | lamed (zwj : Bool)
  /-- A Buginese ya, behind a joiner if `zwj`. -/
  | ya (zwj : Bool)
  /-- A Buginese vowel sign i, a joiner and a ya. -/
  | vowelYa
  /-- A Tifinagh consonant, behind a joiner if `zwj`. -/
  | consonant (zwj : Bool)
  /-- A Tifinagh joiner and a consonant. -/
  | joinedConsonant
  /-- A Lisu tone letter that can end a combination. -/
  | tone
  /-- An Old Turkic i, behind a joiner if `zwj`. -/
  | orkhonI (zwj : Bool)
  /-- A Khmer letter that a coeng sign can put below another. -/
  | coengLetter
  /-- A Kirat Rai vowel sign e. -/
  | vowelE
  /-- Two Kirat Rai vowel signs e, or the sign ai. -/
  | vowelAi
  deriving DecidableEq, Repr, Inhabited

/-- What a variation selector asks of the character before it. -/
inductive Selector
  /-- To be drawn as text. -/
  | text
  /-- To be drawn as an emoji. -/
  | emoji
  /-- To be drawn, if a quotation mark, in two columns. -/
  | fullwidth
  deriving DecidableEq, Repr, Inhabited

/-- The selectors that stand between a scanner and its follower and are still to be obeyed. -/
structure Selectors where
  text : Bool
  emoji : Bool
  fullwidth : Bool
  deriving DecidableEq, Repr, Inhabited

/-- No selector. -/
def Selectors.none : Selectors := ⟨false, false, false⟩

/-- One more selector. -/
def Selectors.insert (s : Selector) (others : Selectors) : Selectors :=
  match s with
  | .text => { others with text := true }
  | .emoji => { others with emoji := true }
  | .fullwidth => { others with fullwidth := true }

/-- All that a scanner remembers of the text to its right. -/
structure Ahead where
  /-- What stands there. -/
  follower : Follower
  /-- The selectors between the scanner and it. -/
  selectors : Selectors
  deriving DecidableEq, Repr, Inhabited

/-- A follower that no selector parts from the scanner. -/
def Follower.ahead (f : Follower) : Ahead := ⟨f, .none⟩

/-- The end of a text: nothing stands to the right. -/
def Ahead.nothing : Ahead := Follower.plain.ahead

/-! ### Characters -/

/-- The zero width joiner. -/
def zeroWidthJoiner : Char := '\u200d'

/-- A flag letter, two of which make a flag. -/
def isFlagLetter (c : Char) : Bool := 0x1f1e6 ≤ c.toNat && c.toNat ≤ 0x1f1ff

/-- A skin tone modifier. -/
def isSkinTone (c : Char) : Bool := 0x1f3fb ≤ c.toNat && c.toNat ≤ 0x1f3ff

/-- A letter of the tag alphabet. -/
def isTagLetter (c : Char) : Bool := 0xe0061 ≤ c.toNat && c.toNat ≤ 0xe007a

/-- A digit of the tag alphabet. -/
def isTagDigit (c : Char) : Bool := 0xe0030 ≤ c.toNat && c.toNat ≤ 0xe0039

/-- A Tifinagh consonant. -/
def isTifinaghConsonant (c : Char) : Bool := ('\u2d31' ≤ c && c ≤ '\u2d65') || c = '\u2d6f'

/-- A Lisu tone letter that can start a combination. -/
def isLisuTone (c : Char) : Bool := '\ua4f8' ≤ c && c ≤ '\ua4fb'

/-- A curved quotation mark, which has a form two columns wide. -/
def isCurvedQuote (c : Char) : Bool :=
  c = '\u2018' || c = '\u2019' || c = '\u201c' || c = '\u201d'

/-- The selector that a character is. -/
def selector? (c : Char) : Option Selector :=
  if c = '\ufe0f' then some .emoji
  else if c = '\ufe0e' then some .text
  else if c = '\ufe01' then some .fullwidth
  else none

/-- A mark that may stand between two Arabic letters that join. -/
def isJoiningMark (c : Char) : Bool := zeroWidth.has c.toNat && !joiningOpaque.has c.toNat

/-- The width of a character beyond the controls, by itself, and what it is to its left
neighbour. -/
def lookup (c : Char) : Nat × Follower :=
  let n := c.toNat
  if zeroWidth.has n then (0, .plain)
  else if doubleWidth.has n then
    (2, if isSkinTone c then .skinTone else if emojiPresentation.has n then .emoji else .plain)
  else if isFlagLetter c then (1, .flagLetter false)
  else if alefs.has n then (1, .alef)
  else if coengLetters.has n then (1, .coengLetter)
  else if isTifinaghConsonant c then (1, .consonant false)
  else if c = '\u05dc' then (1, .lamed false)
  else if c = '\u1a10' then (1, .ya false)
  else if c = '\ua4fc' || c = '\ua4fd' then (1, .tone)
  else if c.toNat = 0x10c03 then (1, .orkhonI false)
  else if c.toNat = 0x16d67 then (1, .vowelE)
  else if c.toNat = 0x16d68 then (1, .vowelAi)
  else if c = '\u17d8' then (3, .plain)
  else (1, .plain)

/-- The width of a character on its own. Controls have none and count zero. -/
def charColumns (c : Char) : Nat :=
  if c < ' ' then 0
  else if c < '\x7f' then 1
  else if c < '\u00a0' then 0
  else (lookup c).1

/-! ### Sequences -/

/-- A follower that starts a ligature which ignorable marks may interrupt. -/
def Follower.startsLigature : Follower → Bool
  | .lamed _ | .ya _ | .vowelYa | .consonant _ | .joinedConsonant | .tone | .orkhonI _
  | .coengLetter => true
  | _ => false

/-- A ligature's follower behind one more zero width joiner. -/
def Follower.behindJoiner : Follower → Follower
  | .lamed _ => .lamed true
  | .ya _ => .ya true
  | .consonant _ => .consonant true
  | .orkhonI _ => .orkhonI true
  | f => f

/-- The rest of an emoji sequence that a joiner ties to what stands on its left. -/
def Follower.isJoinedEmoji : Follower → Bool
  | .joined | .joinedKeycap => true
  | _ => false

/-- What remains of a text behind one more selector. The follower of a letter keeps its place and
the selectors gather; an emoji sequence lets through only the selector for the emoji form; all
else is hidden. -/
def Ahead.behind (s : Selector) (a : Ahead) : Ahead :=
  if a.follower.startsLigature || a.follower = .alef then ⟨a.follower, a.selectors.insert s⟩
  else if s = .emoji && a.follower.isJoinedEmoji then ⟨a.follower, Selectors.none.insert s⟩
  else ⟨.plain, Selectors.none.insert s⟩

/-- What remains of a text whose first character has no emoji form, so that a selector for one is
void and no emoji sequence goes on across it. -/
def Ahead.voidEmoji (a : Ahead) : Ahead :=
  if a.selectors.emoji then
    ⟨if a.follower.isJoinedEmoji then .plain else a.follower, { a.selectors with emoji := false }⟩
  else a

/-- The columns of a character that belongs to one sequence with its follower, and what the two
are to the next character on the left. -/
def Follower.combine (f : Follower) (c : Char) : Option (Int × Follower) :=
  match f with
  | .alef =>
    if lams.has c.toNat then some (0, .plain)
    else if isJoiningMark c then some (0, .alef) else none
  | .lamed true => if c = '\u05d0' then some (0, .plain) else none
  | .coengLetter => if c = '\u17d2' then some (-1, .plain) else none
  | .ya true => if c = '\u1a17' then some (0, .vowelYa) else none
  | .vowelYa => if c = '\u1a15' then some (0, .plain) else none
  | .consonant zwj =>
    if c = '\u2d7f' then some (1, .joinedConsonant)
    else if zwj && isTifinaghConsonant c then some (0, .plain) else none
  | .joinedConsonant => if isTifinaghConsonant c then some (-1, .plain) else none
  | .tone => if isLisuTone c then some (0, .plain) else none
  | .orkhonI true => if c.toNat = 0x10c32 then some (0, .plain) else none
  | .vowelE =>
    if c.toNat = 0x16d63 || c.toNat = 0x16d69 then some (0, .plain)
    else if c.toNat = 0x16d67 then some (0, .vowelAi)
    else if c.toNat = 0x16d68 then some (1, .vowelE) else none
  | .vowelAi => if c.toNat = 0x16d63 then some (0, .plain) else none
  | .skinTone =>
    if emojiModifierBase.has c.toNat then some (0, .emoji)
    else if c = zeroWidthJoiner then some (0, .joined) else none
  | .emoji => if c = zeroWidthJoiner then some (0, .joined) else none
  | .flagLetter many =>
    if isFlagLetter c then some (1, .flagLetter true)
    else if many && c = zeroWidthJoiner then some (0, .joined) else none
  | .joined =>
    if c = '\u20e3' then some (0, .joinedKeycap)
    else if isFlagLetter c then some (1, .joinedFlag)
    else if isSkinTone c then some (0, .skinTone)
    else if c.toNat = 0xe007f then some (0, .joinedTagLetters 0)
    else if (lookup c).2 = .emoji then some (0, .emoji) else none
  | .joinedFlag => if isFlagLetter c then some (-1, .joinedFlags false) else none
  | .joinedFlags odd =>
    if isFlagLetter c then some (if odd then -1 else 3, .joinedFlags !odd)
    else if c = zeroWidthJoiner then some (0, .joined) else none
  | .joinedTagLetters n =>
    if isTagLetter c && n < 6 then some (0, .joinedTagLetters (n + 1))
    else if isTagDigit c && n < 5 then some (0, .joinedTagDigits 1)
    else if c.toNat = 0x1f3f4 && 2 < n then some (0, .emoji) else none
  | .joinedTagDigits n =>
    if isTagDigit c && n < 3 then some (0, .joinedTagDigits (n + 1))
    else if c.toNat = 0x1f3f4 && n = 3 then some (0, .emoji) else none
  | _ => none

/-- The columns that a character beyond the controls adds on the left of a follower, no selector
standing between them. -/
def Follower.step (f : Follower) (c : Char) : Int × Ahead :=
  if f.startsLigature && c = zeroWidthJoiner then (0, f.behindJoiner.ahead)
  else if f.startsLigature && ligatureMarks.has c.toNat then (0, f.ahead)
  else match f.combine c with
    | some (n, g) => (n, g.ahead)
    | none => let r := lookup c; (r.1, r.2.ahead)

/-- The columns that a character without an emoji form adds on the left of a text. -/
def Ahead.stepPlain (a : Ahead) (c : Char) : Int × Ahead :=
  if c ≤ '\u00a0' then
    if c = '\n' then (1, Follower.lineFeed.ahead)
    else if c = '\r' && a.follower = .lineFeed then (0, Ahead.nothing)
    else (1, Ahead.nothing)
  else match selector? c with
    | some s => (0, a.behind s)
    | none =>
      if a.selectors.text && textVariationBase.has c.toNat then (1, Ahead.nothing)
      else if a.selectors.fullwidth && isCurvedQuote c then (2, Ahead.nothing)
      else a.follower.step c

/-- The columns that a character adds on the left of a text, and what the text begins with
then. -/
def Ahead.step (a : Ahead) (c : Char) : Int × Ahead :=
  if a.selectors.emoji && emojiVariationBase.has c.toNat then
    (if a.follower.isJoinedEmoji then 0 else 2, Follower.emoji.ahead)
  else a.voidEmoji.stepPlain c

/-! ### Texts -/

/-- The width of a text so far, and what it begins with. -/
def scanWidth : List Char → Int × Ahead
  | [] => (0, Ahead.nothing)
  | c :: cs =>
    let r := scanWidth cs
    let s := r.2.step c
    (r.1 + s.1, s.2)

@[simp] theorem scanWidth_nil : scanWidth [] = (0, Ahead.nothing) := rfl

@[simp] theorem scanWidth_cons (c : Char) (cs : List Char) :
    scanWidth (c :: cs)
      = ((scanWidth cs).1 + ((scanWidth cs).2.step c).1, ((scanWidth cs).2.step c).2) := rfl

/-- The width of a text in columns. -/
def columns (cs : List Char) : Nat := (scanWidth cs).1.toNat

@[simp] theorem columns_nil : columns [] = 0 := rfl

/-- The width of a text in columns. -/
def displayWidth (s : String) : Nat := columns s.toList

end FlowCanvas
