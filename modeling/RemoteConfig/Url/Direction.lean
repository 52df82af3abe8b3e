import RemoteConfig.Text.Mark
/-! # Direction

A domain in which some characters run from right to left is only clear to a reader if each of its
labels runs in one direction.  A label runs in the direction of its first character, which has to be
a letter, and must not end in a character without a direction.

A character counts as what its folded form is.  A run may go on over code points that no domain
has. -/

namespace RemoteConfig.Url

open Text

/-- What a character means for the direction of a text. -/
inductive Direction where
  | left
  | right
  /-- A figure, written from left to right also between letters that are not. -/
  | europeanNumber
  | arabicNumber
  | neutral
  /-- A mark: the direction is that of the character before it. -/
  | inherited
deriving DecidableEq, Repr

namespace Direction

/-- Letters that run from right to left. -/
def rightCharacters : CodeSet :=
  ⟨[0x5be, 0x5bf, 0x5c0, 0x5c1, 0x5c3, 0x5c4, 0x5c6, 0x5c7, 0x5d0, 0x606, 0x608, 0x609, 0x60b,
    0x60c, 0x60d, 0x60e, 0x61b, 0x64b, 0x66d, 0x670, 0x671, 0x6d6, 0x6e5, 0x6e7, 0x6ee, 0x6f0,
    0x6fa, 0x711, 0x712, 0x730, 0x74d, 0x7a6, 0x7b1, 0x7eb, 0x7f4, 0x7f6, 0x7fa, 0x7fd, 0x7fe,
    0x816, 0x81a, 0x81b, 0x824, 0x825, 0x828, 0x829, 0x830, 0x859, 0x85e, 0x897, 0x8a0, 0x8ca,
    0x2135, 0x213a, 0xfb1d, 0xfb1e, 0xfb1f, 0xfbc3, 0xfbd3, 0xfd3e, 0xfd50, 0xfd90, 0xfd92, 0xfdc8,
    0xfdf0, 0xfdfd, 0xfe71, 0xff5f, 0x10800, 0x1091f, 0x10920, 0x10a01, 0x10a10, 0x10a38, 0x10a40,
    0x10ae5, 0x10aeb, 0x10b39, 0x10b40, 0x10d24, 0x10d4a, 0x10d69, 0x10d6f, 0x10e60, 0x10e80,
    0x10eab, 0x10ead, 0x10ed0, 0x10f00, 0x10f46, 0x10f51, 0x10f82, 0x10f86, 0x11000, 0x1e800,
    0x1e8d0, 0x1e900, 0x1e944, 0x1e94b, 0x1eef0]⟩

/-- Figures of texts that run from right to left. -/
def arabicNumbers : CodeSet :=
  ⟨[0x660, 0x66a, 0x66b, 0x66d, 0x10d30, 0x10d4a, 0x10e60, 0x10e80]⟩

/-- Figures of all other texts. -/
def europeanNumbers : CodeSet :=
  ⟨[0x30, 0x3a, 0x6f0, 0x6fa, 0x102e1, 0x10300]⟩

/-- Punctuation, symbols and joiners. -/
def neutralCharacters : CodeSet :=
  ⟨[0x21, 0x30, 0x3b, 0x61, 0x7b, 0xb5, 0xb6, 0xc0, 0xd7, 0xd8, 0xf7, 0xf8, 0x2b9, 0x2bb, 0x2c2,
    0x2d0, 0x2d2, 0x2e0, 0x2e5, 0x2ee, 0x2ef, 0x300, 0x374, 0x376, 0x387, 0x388, 0x3f6, 0x3f7,
    0x58a, 0x591, 0x606, 0x608, 0x609, 0x60b, 0x60c, 0x60d, 0x60e, 0x610, 0x66a, 0x66b, 0x6de,
    0x6df, 0x6e9, 0x6ea, 0x7f6, 0x7fa, 0x9f2, 0x9f4, 0x9fb, 0x9fc, 0xaf1, 0xaf9, 0xbf3, 0xc00,
    0xc78, 0xc7f, 0xe3f, 0xe40, 0xf3a, 0xf3e, 0x1390, 0x13a0, 0x1400, 0x1401, 0x169b, 0x16a0,
    0x17db, 0x17dc, 0x17f0, 0x1810, 0x1940, 0x1946, 0x19de, 0x1a00, 0x200c, 0x2094, 0x20a0, 0x20d0,
    0x2104, 0x2107, 0x2108, 0x210f, 0x2114, 0x2126, 0x2127, 0x212b, 0x212e, 0x2132, 0x213a, 0x213c,
    0x2140, 0x214e, 0x218a, 0x2336, 0x237b, 0x2395, 0x2396, 0x26ac, 0x26ad, 0x2800, 0x2900, 0x2c00,
    0x2ce5, 0x2ceb, 0x2cf9, 0x2d00, 0x2e00, 0x2e9f, 0x2ea0, 0x2ef3, 0x3001, 0x3005, 0x3008, 0x3021,
    0x3030, 0x3031, 0x3036, 0x3038, 0x303d, 0x3041, 0x30a0, 0x30a1, 0x30fb, 0x30fc, 0x31c0, 0x31f0,
    0x4dc0, 0x4e00, 0xa490, 0xa4d0, 0xa60d, 0xa610, 0xa673, 0xa674, 0xa67e, 0xa680, 0xa700, 0xa722,
    0xa788, 0xa789, 0xa828, 0xa82c, 0xa838, 0xa840, 0xa874, 0xa880, 0xab6a, 0xab70, 0xfbc3, 0xfbd3,
    0xfd3e, 0xfd50, 0xfd90, 0xfd92, 0xfdc8, 0xfdf0, 0xfdfd, 0xfe20, 0xfe31, 0xfe71, 0xff5f, 0xff66,
    0xffe0, 0x10000, 0x10101, 0x10102, 0x10140, 0x1018d, 0x10190, 0x101d0, 0x1091f, 0x10920,
    0x10b39, 0x10b40, 0x10d6e, 0x10d6f, 0x10ed0, 0x10efa, 0x11052, 0x11066, 0x11660, 0x11680,
    0x11fd5, 0x11fff, 0x16fe2, 0x16fe3, 0x1cc00, 0x1cf00, 0x1d1e9, 0x1d242, 0x1d245, 0x1d2c0,
    0x1d300, 0x1d360, 0x1d6c1, 0x1d6c2, 0x1d6db, 0x1d6dc, 0x1d6fb, 0x1d6fc, 0x1d715, 0x1d716,
    0x1d735, 0x1d736, 0x1d74f, 0x1d750, 0x1d76f, 0x1d770, 0x1d789, 0x1d78a, 0x1d7a9, 0x1d7aa,
    0x1d7c3, 0x1d7c4, 0x1e2ff, 0x1e4d0, 0x1eef0, 0x1f150, 0x1f16d, 0x1f170, 0x1f1ad, 0x1f1e6,
    0x1f260, 0x20000]⟩

/-- Marks with a direction of their own. -/
def leftMarks : CodeSet := ⟨[0xcbf, 0xcc0, 0xcc6, 0xcc7, 0x11c3f, 0x11c40]⟩

def ofChar (c : Char) : Direction :=
  if leftMarks.contains c then left
  else if nonspacingMarks.contains c then inherited
  else if rightCharacters.contains c then right
  else if arabicNumbers.contains c then arabicNumber
  else if europeanNumbers.contains c then europeanNumber
  else if neutralCharacters.contains c then neutral
  else left

/-- Whether what follows the first letter of a label keeps its direction.  From right to left only
one kind of figures may occur. -/
def keeps : Direction → List Direction → Bool
  | left, rest => rest.all (· ∈ [left, europeanNumber, neutral, inherited])
  | right, rest => left ∉ rest && !(europeanNumber ∈ rest && arabicNumber ∈ rest)
  | _, _ => false

/-- Whether a label may end in a character. -/
def mayEnd : Direction → Direction → Bool
  | left, last => last ∈ [left, europeanNumber]
  | right, last => last ∈ [right, europeanNumber, arabicNumber]
  | _, _ => false

/-- Whether a label runs in one direction; marks at its end do not count. -/
def isUniform : List Direction → Bool
  | [] => true
  | first :: rest =>
    keeps first rest && (rest.reverse.find? (· ≠ inherited)).all (mayEnd first)

end Direction

/-- Whether the labels of a domain have clear directions. -/
def areDirected (labels : List (List Char)) : Bool :=
  let directions := labels.map (·.map Direction.ofChar)
  directions.all Direction.isUniform ||
    directions.all (·.all fun d => d ≠ .right && d ≠ .arabicNumber)

end RemoteConfig.Url
