import MediaWatch.Text.Ranges

/-! # Newcomers

The tables of letters, marks and digits are those of version 17 of the Unicode standard. Words know
one version less and bare names one version more, so the characters that make the difference are
kept here.
-/

namespace MediaWatch.Text

/-- Word characters that version 17 brought. -/
def newWordChars : CharRanges :=
  [(0x88f, 0x88f), (0xc5c, 0xc5c), (0xcdc, 0xcdc), (0x1acf, 0x1add), (0x1ae0, 0x1aeb),
   (0xa7ce, 0xa7cf), (0xa7d2, 0xa7d2), (0xa7d4, 0xa7d4), (0xa7f1, 0xa7f1), (0x10940, 0x10959),
   (0x10ec5, 0x10ec7), (0x10efa, 0x10efb), (0x11b60, 0x11b67), (0x11db0, 0x11ddb),
   (0x11de0, 0x11de9), (0x16ea0, 0x16eb8), (0x16ebb, 0x16ed3), (0x16ff2, 0x16ff6),
   (0x187f8, 0x187ff), (0x18d09, 0x18d1e), (0x18d80, 0x18df2), (0x1e6c0, 0x1e6de),
   (0x1e6e0, 0x1e6f5), (0x1e6fe, 0x1e6ff), (0x2b73a, 0x2b73f), (0x2cea2, 0x2cead),
   (0x323b0, 0x33479)]

/-- Letters and letter-like numbers that version 18 brought: Armenian, subscript and other Latin
letters, further signs of Devanagari, of cuneiform, of Tangut and of Japanese, letters of phonetic
and mathematical notation, another ideograph, and the scripts Jurchen and Seal. -/
def newLetters : CharRanges :=
  [(0x558, 0x558), (0x58b, 0x58c), (0x208f, 0x208f), (0x209d, 0x209f), (0xa7dd, 0xa7dd),
   (0xa7e2, 0xa7e2), (0xab6c, 0xab6d), (0x107bb, 0x107bf), (0x11b0a, 0x11b0a), (0x11df1, 0x11df1),
   (0x1246f, 0x1246f), (0x12475, 0x1247f), (0x12550, 0x12686), (0x18cd6, 0x18cda),
   (0x18d1f, 0x18d20), (0x18e00, 0x19191), (0x191a0, 0x191d2), (0x1b123, 0x1b128),
   (0x1b168, 0x1b168), (0x1d6a6, 0x1d6a6), (0x1df1f, 0x1df24), (0x1df2b, 0x1df81),
   (0x1df90, 0x1df96), (0x1dfcd, 0x1dfff), (0x2b81e, 0x2b81e), (0x3d000, 0x3fc3f)]

/-- Marks that version 18 brought. -/
def newMarks : CharRanges :=
  [(0x5c8, 0x5c9), (0xb53, 0xb54), (0x1ade, 0x1adf), (0x1aec, 0x1af0), (0x10ecb, 0x10ecf),
   (0x10ef0, 0x10ef9), (0x11df0, 0x11df0), (0x1d127, 0x1d128), (0x1d250, 0x1d252),
   (0x1d25b, 0x1d25c)]

end MediaWatch.Text
