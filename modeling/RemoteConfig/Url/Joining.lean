import RemoteConfig.Text.Composition
import RemoteConfig.Text.Mark
/-! # Joiners

Two invisible characters say whether the letters around them are joined.  They may only stand where
they make a difference: behind a mark that drops the vowel of a letter, and one of them also between
letters that would join.

A letter joins as its folded form does.  A run may go on over code points that no domain has. -/

namespace RemoteConfig.Url

open Text

/-- The invisible character that joins. -/
def joiner : Char := '\u200d'

/-- The invisible character that keeps letters apart. -/
def nonJoiner : Char := '\u200c'

/-- The class of the marks that drop the vowel of a letter. -/
def vowelDropping : Nat := 9

/-- Letters that join the next one. -/
def joiningNext : CodeSet :=
  ⟨[0x620, 0x621, 0x626, 0x627, 0x628, 0x629, 0x62a, 0x62f, 0x633, 0x640, 0x641, 0x648, 0x649,
    0x64b, 0x66e, 0x670, 0x679, 0x688, 0x69a, 0x6c0, 0x6c1, 0x6c3, 0x6cc, 0x6cd, 0x6ce, 0x6cf,
    0x6d0, 0x6d2, 0x6fa, 0x6fd, 0x6ff, 0x700, 0x712, 0x715, 0x71a, 0x71e, 0x71f, 0x728, 0x729,
    0x72a, 0x72b, 0x72c, 0x72d, 0x72f, 0x74e, 0x759, 0x75c, 0x76b, 0x76d, 0x771, 0x772, 0x773,
    0x775, 0x778, 0x77a, 0x780, 0x7ca, 0x7eb, 0x841, 0x846, 0x848, 0x849, 0x84a, 0x854, 0x855,
    0x856, 0x860, 0x861, 0x862, 0x866, 0x868, 0x869, 0x886, 0x887, 0x889, 0x88e, 0x88f, 0x897,
    0x8a0, 0x8aa, 0x8af, 0x8b1, 0x8b3, 0x8b9, 0x8ba, 0x8c9, 0x1807, 0x1808, 0x1820, 0x1880, 0x1887,
    0x18a9, 0x18aa, 0x18b0, 0xa840, 0xa873, 0xfb52, 0xfb82, 0xfb8e, 0xfba4, 0xfba6, 0xfbae, 0xfbd3,
    0xfbd7, 0xfbe4, 0xfbea, 0xfbf6, 0xfc37, 0xfc38, 0xfc5b, 0xfc5d, 0xfc64, 0xfc66, 0xfc6a, 0xfc6c,
    0xfc70, 0xfc72, 0xfc76, 0xfc78, 0xfc80, 0xfc81, 0xfc88, 0xfc89, 0xfc8a, 0xfc8c, 0xfc91, 0xfc93,
    0xfcf2, 0xfcf5, 0xfd0d, 0xfd11, 0xfd29, 0xfd2d, 0xfd3c, 0xfd50, 0xfd90, 0xfd92, 0xfdc8, 0xfdf2,
    0xfdf3, 0xfdf5, 0xfdfd, 0xfe89, 0xfe8d, 0xfe8f, 0xfe93, 0xfe95, 0xfea9, 0xfeb1, 0xfeed, 0xfeef,
    0xfef5, 0x10ac0, 0x10ac5, 0x10acd, 0x10ace, 0x10ad3, 0x10add, 0x10ade, 0x10ae1, 0x10aeb,
    0x10aef, 0x10b80, 0x10b81, 0x10b82, 0x10b83, 0x10b86, 0x10b89, 0x10b8a, 0x10b8c, 0x10b8d,
    0x10b8e, 0x10b90, 0x10b91, 0x10bad, 0x10baf, 0x10d00, 0x10d22, 0x10d23, 0x10d24, 0x10ec3,
    0x10ec5, 0x10ec6, 0x10ed0, 0x10f30, 0x10f33, 0x10f34, 0x10f45, 0x10f51, 0x10f54, 0x10f70,
    0x10f74, 0x10f76, 0x10f82, 0x10fb0, 0x10fb1, 0x10fb2, 0x10fb4, 0x10fb8, 0x10fb9, 0x10fbb,
    0x10fbd, 0x10fbe, 0x10fc0, 0x10fc1, 0x10fc2, 0x10fc4, 0x10fc5, 0x10fca, 0x10fe0, 0x1e900,
    0x1e944, 0x1ee01, 0x1ee03, 0x1ee07, 0x1ee13, 0x1ee14, 0x1ee18, 0x1ee19, 0x1ee80, 0x1ee81,
    0x1ee83, 0x1ee84, 0x1ee85, 0x1ee87, 0x1ee93, 0x1ee94, 0x1ee98, 0x1ee99, 0x1eea3, 0x1eea7,
    0x1eeb3, 0x1eeb4, 0x1eeb8, 0x1eeb9, 0x1eef0]⟩

/-- Letters that are joined by the one before them. -/
def joiningPrevious : CodeSet :=
  ⟨[0x620, 0x621, 0x622, 0x640, 0x641, 0x64b, 0x66e, 0x670, 0x671, 0x674, 0x675, 0x6d4, 0x6d5,
    0x6d6, 0x6ee, 0x6f0, 0x6fa, 0x6fd, 0x6ff, 0x700, 0x710, 0x711, 0x712, 0x730, 0x74d, 0x780,
    0x7ca, 0x7eb, 0x840, 0x859, 0x860, 0x861, 0x862, 0x866, 0x867, 0x883, 0x886, 0x887, 0x889,
    0x897, 0x8a0, 0x8ad, 0x8ae, 0x8c9, 0x1807, 0x1808, 0x1820, 0x1880, 0x1887, 0x18a9, 0x18aa,
    0x18b0, 0xa840, 0xa872, 0xfb50, 0xfbb2, 0xfbd3, 0xfcf2, 0xfcf5, 0xfd3e, 0xfd50, 0xfd90, 0xfd92,
    0xfdc8, 0xfdf0, 0xfdfd, 0xfe81, 0xff5f, 0x10ac0, 0x10ac6, 0x10ac7, 0x10ac8, 0x10ac9, 0x10acb,
    0x10ace, 0x10ad7, 0x10ad8, 0x10ae2, 0x10ae4, 0x10ae5, 0x10aeb, 0x10af0, 0x10b80, 0x10b99,
    0x10ba9, 0x10baf, 0x10d01, 0x10d24, 0x10ec2, 0x10ec5, 0x10ec6, 0x10ed0, 0x10f30, 0x10f45,
    0x10f51, 0x10f55, 0x10f70, 0x10f82, 0x10fb0, 0x10fb1, 0x10fb2, 0x10fb7, 0x10fb8, 0x10fc0,
    0x10fc1, 0x10fc5, 0x10fc9, 0x10fcb, 0x1e900, 0x1e944, 0x1ee00, 0x1eef0]⟩

/-- Whether letters join across a character. -/
def isTransparent (c : Char) : Bool := nonspacingMarks.contains c || c = Char.ofNat 0x1e94b

/-- Whether the first letter of a text, marks aside, joins in a direction. -/
def joins (letters : CodeSet) (cs : List Char) : Bool :=
  (cs.dropWhile isTransparent).head?.any letters.contains

/-- Whether a character may stand between two parts of a label; the first part is reversed. -/
def mayStand (before : List Char) (c : Char) (after : List Char) : Bool :=
  (c ≠ joiner && c ≠ nonJoiner) || before.head?.any (markClass · = vowelDropping) ||
    (c = nonJoiner && joins joiningNext before && joins joiningPrevious after)

/-- Whether joiners make a difference wherever they stand; what comes before is reversed. -/
def areJoined (before : List Char) : List Char → Bool
  | [] => true
  | c :: after => mayStand before c after && areJoined (c :: before) after

end RemoteConfig.Url
