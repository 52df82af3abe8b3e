import RemoteConfig.Text.Mark
import RemoteConfig.Text.Unassigned
/-! # Hidden characters

Diagnostics show a character as itself only if a reader can see it there.  A character is *hidden*
if it is invisible and not the space, if it has no place in the character set, or if it extends the
character before it, as most marks do. -/

namespace RemoteConfig.Text

/-- Controls, format characters, separators, fillers and characters for private use. -/
def invisibleCharacters : CodeSet :=
  ⟨[0x0, 0x20, 0x7f, 0xa1, 0xad, 0xae, 0x600, 0x606, 0x61c, 0x61d, 0x6dd, 0x6de, 0x70f, 0x710,
    0x890, 0x892, 0x8e2, 0x8e3, 0x115f, 0x1161, 0x1680, 0x1681, 0x180e, 0x180f, 0x2000, 0x2010,
    0x2028, 0x2030, 0x205f, 0x2065, 0x2066, 0x2070, 0x3000, 0x3001, 0x3164, 0x3165, 0xe000, 0xf900,
    0xfeff, 0xff00, 0xffa0, 0xffa1, 0xfff9, 0xfffc, 0x110bd, 0x110be, 0x110cd, 0x110ce, 0x13430,
    0x13440, 0x1bca0, 0x1bca4, 0x1d173, 0x1d17b, 0xe0001, 0xe0002, 0xe0020, 0xe0080, 0xf0000,
    0xffffe, 0x100000, 0x10fffe]⟩

/-- Marks that take room of their own and yet belong to the look of the character before them. -/
def extendingMarks : CodeSet :=
  ⟨[0x9be, 0x9bf, 0x9d7, 0x9d8, 0xb3e, 0xb3f, 0xb57, 0xb58, 0xbbe, 0xbbf, 0xbd7, 0xbd8, 0xcc0,
    0xcc1, 0xcc2, 0xcc3, 0xcc7, 0xcc9, 0xcca, 0xccc, 0xcd5, 0xcd7, 0xd3e, 0xd3f, 0xd57, 0xd58,
    0xdcf, 0xdd0, 0xddf, 0xde0, 0x1715, 0x1716, 0x1734, 0x1735, 0x1b35, 0x1b36, 0x1b3b, 0x1b3c,
    0x1b3d, 0x1b3e, 0x1b43, 0x1b45, 0x1baa, 0x1bab, 0x1bf2, 0x1bf4, 0x302e, 0x3030, 0xa953, 0xa954,
    0xa9c0, 0xa9c1, 0x111c0, 0x111c1, 0x11235, 0x11236, 0x1133e, 0x1133f, 0x1134d, 0x1134e, 0x11357,
    0x11358, 0x113b8, 0x113b9, 0x113c2, 0x113c3, 0x113c5, 0x113c6, 0x113c7, 0x113ca, 0x113cf,
    0x113d0, 0x114b0, 0x114b1, 0x114bd, 0x114be, 0x115af, 0x115b0, 0x116b6, 0x116b7, 0x11930,
    0x11931, 0x1193d, 0x1193e, 0x11f41, 0x11f42, 0x16ff0, 0x16ff2, 0x1d165, 0x1d167, 0x1d16d,
    0x1d173]⟩

/-- Whether a character is shown by its number and not as itself. -/
def isHidden (c : Char) : Bool :=
  if 0x20 ≤ c.toNat && c.toNat < 0x7f then false
  else invisibleCharacters.contains c || nonspacingMarks.contains c ||
    extendingMarks.contains c || unassigned.contains c

end RemoteConfig.Text
