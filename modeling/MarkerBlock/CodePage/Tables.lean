/-
MarkerBlock.CodePage.Tables — the upper halves of the standard
single-byte code pages.

Each row lists the code points of the octets 0x80 to 0xFF; zero marks an octet
that the page leaves unassigned.  In the Windows and ISO pages an octet below
0xA0 without a character of its own stands for the control character of the
same number.
-/
import MarkerBlock.CodePage

namespace MarkerBlock.CodePage

/-- IBM866. -/
def ibm866 : CodePage where
  name := "IBM866"
  row :=
    List.range' 0x410 48
    ++ [0x2591, 0x2592, 0x2593, 0x2502, 0x2524, 0x2561, 0x2562, 0x2556, 0x2555, 0x2563, 0x2551, 0x2557,
     0x255D, 0x255C, 0x255B, 0x2510, 0x2514, 0x2534, 0x252C, 0x251C, 0x2500, 0x253C, 0x255E, 0x255F,
     0x255A, 0x2554, 0x2569, 0x2566, 0x2560, 0x2550, 0x256C, 0x2567, 0x2568, 0x2564, 0x2565, 0x2559,
     0x2558, 0x2552, 0x2553, 0x256B, 0x256A, 0x2518, 0x250C, 0x2588, 0x2584, 0x258C, 0x2590, 0x2580]
    ++ List.range' 0x440 16
    ++ [0x401, 0x451, 0x404, 0x454, 0x407, 0x457, 0x40E, 0x45E, 0xB0, 0x2219, 0xB7, 0x221A,
     0x2116, 0xA4, 0x25A0, 0xA0]
  wellFormed := by decide +kernel

/-- ISO-8859-2. -/
def iso8859_2 : CodePage where
  name := "ISO-8859-2"
  row :=
    List.range' 0x80 33
    ++ [0x104, 0x2D8, 0x141, 0xA4, 0x13D, 0x15A, 0xA7, 0xA8, 0x160, 0x15E, 0x164, 0x179,
     0xAD, 0x17D, 0x17B, 0xB0, 0x105, 0x2DB, 0x142, 0xB4, 0x13E, 0x15B, 0x2C7, 0xB8,
     0x161, 0x15F, 0x165, 0x17A, 0x2DD, 0x17E, 0x17C, 0x154, 0xC1, 0xC2, 0x102, 0xC4,
     0x139, 0x106, 0xC7, 0x10C, 0xC9, 0x118, 0xCB, 0x11A, 0xCD, 0xCE, 0x10E, 0x110,
     0x143, 0x147, 0xD3, 0xD4, 0x150, 0xD6, 0xD7, 0x158, 0x16E, 0xDA, 0x170, 0xDC,
     0xDD, 0x162, 0xDF, 0x155, 0xE1, 0xE2, 0x103, 0xE4, 0x13A, 0x107, 0xE7, 0x10D,
     0xE9, 0x119, 0xEB, 0x11B, 0xED, 0xEE, 0x10F, 0x111, 0x144, 0x148, 0xF3, 0xF4,
     0x151, 0xF6, 0xF7, 0x159, 0x16F, 0xFA, 0x171, 0xFC, 0xFD, 0x163, 0x2D9]
  wellFormed := by decide +kernel

/-- ISO-8859-3. -/
def iso8859_3 : CodePage where
  name := "ISO-8859-3"
  row :=
    List.range' 0x80 33
    ++ [0x126, 0x2D8, 0xA3, 0xA4, 0, 0x124, 0xA7, 0xA8, 0x130, 0x15E, 0x11E, 0x134,
     0xAD, 0, 0x17B, 0xB0, 0x127, 0xB2, 0xB3, 0xB4, 0xB5, 0x125, 0xB7, 0xB8,
     0x131, 0x15F, 0x11F, 0x135, 0xBD, 0, 0x17C, 0xC0, 0xC1, 0xC2, 0, 0xC4,
     0x10A, 0x108, 0xC7, 0xC8, 0xC9, 0xCA, 0xCB, 0xCC, 0xCD, 0xCE, 0xCF, 0,
     0xD1, 0xD2, 0xD3, 0xD4, 0x120, 0xD6, 0xD7, 0x11C, 0xD9, 0xDA, 0xDB, 0xDC,
     0x16C, 0x15C, 0xDF, 0xE0, 0xE1, 0xE2, 0, 0xE4, 0x10B, 0x109, 0xE7, 0xE8,
     0xE9, 0xEA, 0xEB, 0xEC, 0xED, 0xEE, 0xEF, 0, 0xF1, 0xF2, 0xF3, 0xF4,
     0x121, 0xF6, 0xF7, 0x11D, 0xF9, 0xFA, 0xFB, 0xFC, 0x16D, 0x15D, 0x2D9]
  wellFormed := by decide +kernel

/-- ISO-8859-4. -/
def iso8859_4 : CodePage where
  name := "ISO-8859-4"
  row :=
    List.range' 0x80 33
    ++ [0x104, 0x138, 0x156, 0xA4, 0x128, 0x13B, 0xA7, 0xA8, 0x160, 0x112, 0x122, 0x166,
     0xAD, 0x17D, 0xAF, 0xB0, 0x105, 0x2DB, 0x157, 0xB4, 0x129, 0x13C, 0x2C7, 0xB8,
     0x161, 0x113, 0x123, 0x167, 0x14A, 0x17E, 0x14B, 0x100, 0xC1, 0xC2, 0xC3, 0xC4,
     0xC5, 0xC6, 0x12E, 0x10C, 0xC9, 0x118, 0xCB, 0x116, 0xCD, 0xCE, 0x12A, 0x110,
     0x145, 0x14C, 0x136, 0xD4, 0xD5, 0xD6, 0xD7, 0xD8, 0x172, 0xDA, 0xDB, 0xDC,
     0x168, 0x16A, 0xDF, 0x101, 0xE1, 0xE2, 0xE3, 0xE4, 0xE5, 0xE6, 0x12F, 0x10D,
     0xE9, 0x119, 0xEB, 0x117, 0xED, 0xEE, 0x12B, 0x111, 0x146, 0x14D, 0x137, 0xF4,
     0xF5, 0xF6, 0xF7, 0xF8, 0x173, 0xFA, 0xFB, 0xFC, 0x169, 0x16B, 0x2D9]
  wellFormed := by decide +kernel

/-- ISO-8859-5. -/
def iso8859_5 : CodePage where
  name := "ISO-8859-5"
  row :=
    List.range' 0x80 33
    ++ [0x401, 0x402, 0x403, 0x404, 0x405, 0x406, 0x407, 0x408, 0x409, 0x40A, 0x40B, 0x40C,
     0xAD]
    ++ List.range' 0x40E 66
    ++ [0x2116, 0x451, 0x452, 0x453, 0x454, 0x455, 0x456, 0x457, 0x458, 0x459, 0x45A, 0x45B,
     0x45C, 0xA7, 0x45E, 0x45F]
  wellFormed := by decide +kernel

/-- ISO-8859-6. -/
def iso8859_6 : CodePage where
  name := "ISO-8859-6"
  row :=
    List.range' 0x80 33
    ++ [0, 0, 0, 0xA4, 0, 0, 0, 0, 0, 0, 0, 0x60C,
     0xAD]
    ++ List.replicate 13 0
    ++ [0x61B, 0, 0, 0, 0x61F, 0]
    ++ List.range' 0x621 26
    ++ [0, 0, 0, 0, 0]
    ++ List.range' 0x640 19
    ++ List.replicate 13 0
  wellFormed := by decide +kernel

/-- ISO-8859-7. -/
def iso8859_7 : CodePage where
  name := "ISO-8859-7"
  row :=
    List.range' 0x80 33
    ++ [0x2018, 0x2019, 0xA3, 0x20AC, 0x20AF, 0xA6, 0xA7, 0xA8, 0xA9, 0x37A, 0xAB, 0xAC,
     0xAD, 0, 0x2015, 0xB0, 0xB1, 0xB2, 0xB3, 0x384, 0x385, 0x386, 0xB7, 0x388,
     0x389, 0x38A, 0xBB, 0x38C, 0xBD]
    ++ List.range' 0x38E 20
    ++ [0]
    ++ List.range' 0x3A3 44
    ++ [0]
  wellFormed := by decide +kernel

/-- ISO-8859-8. -/
def iso8859_8 : CodePage where
  name := "ISO-8859-8"
  row :=
    List.range' 0x80 33
    ++ [0, 0xA2, 0xA3, 0xA4, 0xA5, 0xA6, 0xA7, 0xA8, 0xA9, 0xD7, 0xAB, 0xAC,
     0xAD, 0xAE, 0xAF, 0xB0, 0xB1, 0xB2, 0xB3, 0xB4, 0xB5, 0xB6, 0xB7, 0xB8,
     0xB9, 0xF7, 0xBB, 0xBC, 0xBD, 0xBE]
    ++ List.replicate 32 0
    ++ [0x2017]
    ++ List.range' 0x5D0 27
    ++ [0, 0, 0x200E, 0x200F, 0]
  wellFormed := by decide +kernel

/-- ISO-8859-8-I: the same row as ISO-8859-8, with text in logical order. -/
def iso8859_8i : CodePage where
  name := "ISO-8859-8-I"
  row := iso8859_8.row
  wellFormed := iso8859_8.wellFormed

/-- ISO-8859-10. -/
def iso8859_10 : CodePage where
  name := "ISO-8859-10"
  row :=
    List.range' 0x80 33
    ++ [0x104, 0x112, 0x122, 0x12A, 0x128, 0x136, 0xA7, 0x13B, 0x110, 0x160, 0x166, 0x17D,
     0xAD, 0x16A, 0x14A, 0xB0, 0x105, 0x113, 0x123, 0x12B, 0x129, 0x137, 0xB7, 0x13C,
     0x111, 0x161, 0x167, 0x17E, 0x2015, 0x16B, 0x14B, 0x100, 0xC1, 0xC2, 0xC3, 0xC4,
     0xC5, 0xC6, 0x12E, 0x10C, 0xC9, 0x118, 0xCB, 0x116, 0xCD, 0xCE, 0xCF, 0xD0,
     0x145, 0x14C, 0xD3, 0xD4, 0xD5, 0xD6, 0x168, 0xD8, 0x172, 0xDA, 0xDB, 0xDC,
     0xDD, 0xDE, 0xDF, 0x101, 0xE1, 0xE2, 0xE3, 0xE4, 0xE5, 0xE6, 0x12F, 0x10D,
     0xE9, 0x119, 0xEB, 0x117, 0xED, 0xEE, 0xEF, 0xF0, 0x146, 0x14D, 0xF3, 0xF4,
     0xF5, 0xF6, 0x169, 0xF8, 0x173, 0xFA, 0xFB, 0xFC, 0xFD, 0xFE, 0x138]
  wellFormed := by decide +kernel

/-- ISO-8859-13. -/
def iso8859_13 : CodePage where
  name := "ISO-8859-13"
  row :=
    List.range' 0x80 33
    ++ [0x201D, 0xA2, 0xA3, 0xA4, 0x201E, 0xA6, 0xA7, 0xD8, 0xA9, 0x156, 0xAB, 0xAC,
     0xAD, 0xAE, 0xC6, 0xB0, 0xB1, 0xB2, 0xB3, 0x201C, 0xB5, 0xB6, 0xB7, 0xF8,
     0xB9, 0x157, 0xBB, 0xBC, 0xBD, 0xBE, 0xE6, 0x104, 0x12E, 0x100, 0x106, 0xC4,
     0xC5, 0x118, 0x112, 0x10C, 0xC9, 0x179, 0x116, 0x122, 0x136, 0x12A, 0x13B, 0x160,
     0x143, 0x145, 0xD3, 0x14C, 0xD5, 0xD6, 0xD7, 0x172, 0x141, 0x15A, 0x16A, 0xDC,
     0x17B, 0x17D, 0xDF, 0x105, 0x12F, 0x101, 0x107, 0xE4, 0xE5, 0x119, 0x113, 0x10D,
     0xE9, 0x17A, 0x117, 0x123, 0x137, 0x12B, 0x13C, 0x161, 0x144, 0x146, 0xF3, 0x14D,
     0xF5, 0xF6, 0xF7, 0x173, 0x142, 0x15B, 0x16B, 0xFC, 0x17C, 0x17E, 0x2019]
  wellFormed := by decide +kernel

/-- ISO-8859-14. -/
def iso8859_14 : CodePage where
  name := "ISO-8859-14"
  row :=
    List.range' 0x80 33
    ++ [0x1E02, 0x1E03, 0xA3, 0x10A, 0x10B, 0x1E0A, 0xA7, 0x1E80, 0xA9, 0x1E82, 0x1E0B, 0x1EF2,
     0xAD, 0xAE, 0x178, 0x1E1E, 0x1E1F, 0x120, 0x121, 0x1E40, 0x1E41, 0xB6, 0x1E56, 0x1E81,
     0x1E57, 0x1E83, 0x1E60, 0x1EF3, 0x1E84, 0x1E85, 0x1E61]
    ++ List.range' 0xC0 16
    ++ [0x174, 0xD1, 0xD2, 0xD3, 0xD4, 0xD5, 0xD6, 0x1E6A, 0xD8, 0xD9, 0xDA, 0xDB,
     0xDC, 0xDD, 0x176]
    ++ List.range' 0xDF 17
    ++ [0x175, 0xF1, 0xF2, 0xF3, 0xF4, 0xF5, 0xF6, 0x1E6B, 0xF8, 0xF9, 0xFA, 0xFB,
     0xFC, 0xFD, 0x177, 0xFF]
  wellFormed := by decide +kernel

/-- ISO-8859-15. -/
def iso8859_15 : CodePage where
  name := "ISO-8859-15"
  row :=
    List.range' 0x80 36
    ++ [0x20AC, 0xA5, 0x160, 0xA7, 0x161, 0xA9, 0xAA, 0xAB, 0xAC, 0xAD, 0xAE, 0xAF,
     0xB0, 0xB1, 0xB2, 0xB3, 0x17D, 0xB5, 0xB6, 0xB7, 0x17E, 0xB9, 0xBA, 0xBB,
     0x152, 0x153, 0x178]
    ++ List.range' 0xBF 65
  wellFormed := by decide +kernel

/-- ISO-8859-16. -/
def iso8859_16 : CodePage where
  name := "ISO-8859-16"
  row :=
    List.range' 0x80 33
    ++ [0x104, 0x105, 0x141, 0x20AC, 0x201E, 0x160, 0xA7, 0x161, 0xA9, 0x218, 0xAB, 0x179,
     0xAD, 0x17A, 0x17B, 0xB0, 0xB1, 0x10C, 0x142, 0x17D, 0x201D, 0xB6, 0xB7, 0x17E,
     0x10D, 0x219, 0xBB, 0x152, 0x153, 0x178, 0x17C, 0xC0, 0xC1, 0xC2, 0x102, 0xC4,
     0x106, 0xC6, 0xC7, 0xC8, 0xC9, 0xCA, 0xCB, 0xCC, 0xCD, 0xCE, 0xCF, 0x110,
     0x143, 0xD2, 0xD3, 0xD4, 0x150, 0xD6, 0x15A, 0x170, 0xD9, 0xDA, 0xDB, 0xDC,
     0x118, 0x21A, 0xDF, 0xE0, 0xE1, 0xE2, 0x103, 0xE4, 0x107, 0xE6, 0xE7, 0xE8,
     0xE9, 0xEA, 0xEB, 0xEC, 0xED, 0xEE, 0xEF, 0x111, 0x144, 0xF2, 0xF3, 0xF4,
     0x151, 0xF6, 0x15B, 0x171, 0xF9, 0xFA, 0xFB, 0xFC, 0x119, 0x21B, 0xFF]
  wellFormed := by decide +kernel

/-- KOI8-R. -/
def koi8r : CodePage where
  name := "KOI8-R"
  row :=
    [0x2500, 0x2502, 0x250C, 0x2510, 0x2514, 0x2518, 0x251C, 0x2524, 0x252C, 0x2534, 0x253C, 0x2580,
     0x2584, 0x2588, 0x258C, 0x2590, 0x2591, 0x2592, 0x2593, 0x2320, 0x25A0, 0x2219, 0x221A, 0x2248,
     0x2264, 0x2265, 0xA0, 0x2321, 0xB0, 0xB2, 0xB7, 0xF7, 0x2550, 0x2551, 0x2552, 0x451,
     0x2553, 0x2554, 0x2555, 0x2556, 0x2557, 0x2558, 0x2559, 0x255A, 0x255B, 0x255C, 0x255D, 0x255E,
     0x255F, 0x2560, 0x2561, 0x401, 0x2562, 0x2563, 0x2564, 0x2565, 0x2566, 0x2567, 0x2568, 0x2569,
     0x256A, 0x256B, 0x256C, 0xA9, 0x44E, 0x430, 0x431, 0x446, 0x434, 0x435, 0x444, 0x433,
     0x445, 0x438, 0x439, 0x43A, 0x43B, 0x43C, 0x43D, 0x43E, 0x43F, 0x44F, 0x440, 0x441,
     0x442, 0x443, 0x436, 0x432, 0x44C, 0x44B, 0x437, 0x448, 0x44D, 0x449, 0x447, 0x44A,
     0x42E, 0x410, 0x411, 0x426, 0x414, 0x415, 0x424, 0x413, 0x425, 0x418, 0x419, 0x41A,
     0x41B, 0x41C, 0x41D, 0x41E, 0x41F, 0x42F, 0x420, 0x421, 0x422, 0x423, 0x416, 0x412,
     0x42C, 0x42B, 0x417, 0x428, 0x42D, 0x429, 0x427, 0x42A]
  wellFormed := by decide +kernel

/-- KOI8-U. -/
def koi8u : CodePage where
  name := "KOI8-U"
  row :=
    [0x2500, 0x2502, 0x250C, 0x2510, 0x2514, 0x2518, 0x251C, 0x2524, 0x252C, 0x2534, 0x253C, 0x2580,
     0x2584, 0x2588, 0x258C, 0x2590, 0x2591, 0x2592, 0x2593, 0x2320, 0x25A0, 0x2219, 0x221A, 0x2248,
     0x2264, 0x2265, 0xA0, 0x2321, 0xB0, 0xB2, 0xB7, 0xF7, 0x2550, 0x2551, 0x2552, 0x451,
     0x454, 0x2554, 0x456, 0x457, 0x2557, 0x2558, 0x2559, 0x255A, 0x255B, 0x491, 0x45E, 0x255E,
     0x255F, 0x2560, 0x2561, 0x401, 0x404, 0x2563, 0x406, 0x407, 0x2566, 0x2567, 0x2568, 0x2569,
     0x256A, 0x490, 0x40E, 0xA9, 0x44E, 0x430, 0x431, 0x446, 0x434, 0x435, 0x444, 0x433,
     0x445, 0x438, 0x439, 0x43A, 0x43B, 0x43C, 0x43D, 0x43E, 0x43F, 0x44F, 0x440, 0x441,
     0x442, 0x443, 0x436, 0x432, 0x44C, 0x44B, 0x437, 0x448, 0x44D, 0x449, 0x447, 0x44A,
     0x42E, 0x410, 0x411, 0x426, 0x414, 0x415, 0x424, 0x413, 0x425, 0x418, 0x419, 0x41A,
     0x41B, 0x41C, 0x41D, 0x41E, 0x41F, 0x42F, 0x420, 0x421, 0x422, 0x423, 0x416, 0x412,
     0x42C, 0x42B, 0x417, 0x428, 0x42D, 0x429, 0x427, 0x42A]
  wellFormed := by decide +kernel

/-- macintosh. -/
def macintosh : CodePage where
  name := "macintosh"
  row :=
    [0xC4, 0xC5, 0xC7, 0xC9, 0xD1, 0xD6, 0xDC, 0xE1, 0xE0, 0xE2, 0xE4, 0xE3,
     0xE5, 0xE7, 0xE9, 0xE8, 0xEA, 0xEB, 0xED, 0xEC, 0xEE, 0xEF, 0xF1, 0xF3,
     0xF2, 0xF4, 0xF6, 0xF5, 0xFA, 0xF9, 0xFB, 0xFC, 0x2020, 0xB0, 0xA2, 0xA3,
     0xA7, 0x2022, 0xB6, 0xDF, 0xAE, 0xA9, 0x2122, 0xB4, 0xA8, 0x2260, 0xC6, 0xD8,
     0x221E, 0xB1, 0x2264, 0x2265, 0xA5, 0xB5, 0x2202, 0x2211, 0x220F, 0x3C0, 0x222B, 0xAA,
     0xBA, 0x3A9, 0xE6, 0xF8, 0xBF, 0xA1, 0xAC, 0x221A, 0x192, 0x2248, 0x2206, 0xAB,
     0xBB, 0x2026, 0xA0, 0xC0, 0xC3, 0xD5, 0x152, 0x153, 0x2013, 0x2014, 0x201C, 0x201D,
     0x2018, 0x2019, 0xF7, 0x25CA, 0xFF, 0x178, 0x2044, 0x20AC, 0x2039, 0x203A, 0xFB01, 0xFB02,
     0x2021, 0xB7, 0x201A, 0x201E, 0x2030, 0xC2, 0xCA, 0xC1, 0xCB, 0xC8, 0xCD, 0xCE,
     0xCF, 0xCC, 0xD3, 0xD4, 0xF8FF, 0xD2, 0xDA, 0xDB, 0xD9, 0x131, 0x2C6, 0x2DC,
     0xAF, 0x2D8, 0x2D9, 0x2DA, 0xB8, 0x2DD, 0x2DB, 0x2C7]
  wellFormed := by decide +kernel

/-- windows-874. -/
def windows874 : CodePage where
  name := "windows-874"
  row :=
    [0x20AC, 0x81, 0x82, 0x83, 0x84, 0x2026, 0x86, 0x87, 0x88, 0x89, 0x8A, 0x8B,
     0x8C, 0x8D, 0x8E, 0x8F, 0x90, 0x2018, 0x2019, 0x201C, 0x201D, 0x2022, 0x2013, 0x2014,
     0x98, 0x99, 0x9A, 0x9B, 0x9C, 0x9D, 0x9E, 0x9F, 0xA0]
    ++ List.range' 0xE01 58
    ++ [0, 0, 0, 0]
    ++ List.range' 0xE3F 29
    ++ [0, 0, 0, 0]
  wellFormed := by decide +kernel

/-- windows-1250. -/
def windows1250 : CodePage where
  name := "windows-1250"
  row :=
    [0x20AC, 0x81, 0x201A, 0x83, 0x201E, 0x2026, 0x2020, 0x2021, 0x88, 0x2030, 0x160, 0x2039,
     0x15A, 0x164, 0x17D, 0x179, 0x90, 0x2018, 0x2019, 0x201C, 0x201D, 0x2022, 0x2013, 0x2014,
     0x98, 0x2122, 0x161, 0x203A, 0x15B, 0x165, 0x17E, 0x17A, 0xA0, 0x2C7, 0x2D8, 0x141,
     0xA4, 0x104, 0xA6, 0xA7, 0xA8, 0xA9, 0x15E, 0xAB, 0xAC, 0xAD, 0xAE, 0x17B,
     0xB0, 0xB1, 0x2DB, 0x142, 0xB4, 0xB5, 0xB6, 0xB7, 0xB8, 0x105, 0x15F, 0xBB,
     0x13D, 0x2DD, 0x13E, 0x17C, 0x154, 0xC1, 0xC2, 0x102, 0xC4, 0x139, 0x106, 0xC7,
     0x10C, 0xC9, 0x118, 0xCB, 0x11A, 0xCD, 0xCE, 0x10E, 0x110, 0x143, 0x147, 0xD3,
     0xD4, 0x150, 0xD6, 0xD7, 0x158, 0x16E, 0xDA, 0x170, 0xDC, 0xDD, 0x162, 0xDF,
     0x155, 0xE1, 0xE2, 0x103, 0xE4, 0x13A, 0x107, 0xE7, 0x10D, 0xE9, 0x119, 0xEB,
     0x11B, 0xED, 0xEE, 0x10F, 0x111, 0x144, 0x148, 0xF3, 0xF4, 0x151, 0xF6, 0xF7,
     0x159, 0x16F, 0xFA, 0x171, 0xFC, 0xFD, 0x163, 0x2D9]
  wellFormed := by decide +kernel

/-- windows-1251. -/
def windows1251 : CodePage where
  name := "windows-1251"
  row :=
    [0x402, 0x403, 0x201A, 0x453, 0x201E, 0x2026, 0x2020, 0x2021, 0x20AC, 0x2030, 0x409, 0x2039,
     0x40A, 0x40C, 0x40B, 0x40F, 0x452, 0x2018, 0x2019, 0x201C, 0x201D, 0x2022, 0x2013, 0x2014,
     0x98, 0x2122, 0x459, 0x203A, 0x45A, 0x45C, 0x45B, 0x45F, 0xA0, 0x40E, 0x45E, 0x408,
     0xA4, 0x490, 0xA6, 0xA7, 0x401, 0xA9, 0x404, 0xAB, 0xAC, 0xAD, 0xAE, 0x407,
     0xB0, 0xB1, 0x406, 0x456, 0x491, 0xB5, 0xB6, 0xB7, 0x451, 0x2116, 0x454, 0xBB,
     0x458, 0x405, 0x455, 0x457]
    ++ List.range' 0x410 64
  wellFormed := by decide +kernel

/-- windows-1252. -/
def windows1252 : CodePage where
  name := "windows-1252"
  row :=
    [0x20AC, 0x81, 0x201A, 0x192, 0x201E, 0x2026, 0x2020, 0x2021, 0x2C6, 0x2030, 0x160, 0x2039,
     0x152, 0x8D, 0x17D, 0x8F, 0x90, 0x2018, 0x2019, 0x201C, 0x201D, 0x2022, 0x2013, 0x2014,
     0x2DC, 0x2122, 0x161, 0x203A, 0x153, 0x9D, 0x17E, 0x178]
    ++ List.range' 0xA0 96
  wellFormed := by decide +kernel

/-- windows-1253. -/
def windows1253 : CodePage where
  name := "windows-1253"
  row :=
    [0x20AC, 0x81, 0x201A, 0x192, 0x201E, 0x2026, 0x2020, 0x2021, 0x88, 0x2030, 0x8A, 0x2039,
     0x8C, 0x8D, 0x8E, 0x8F, 0x90, 0x2018, 0x2019, 0x201C, 0x201D, 0x2022, 0x2013, 0x2014,
     0x98, 0x2122, 0x9A, 0x203A, 0x9C, 0x9D, 0x9E, 0x9F, 0xA0, 0x385, 0x386, 0xA3,
     0xA4, 0xA5, 0xA6, 0xA7, 0xA8, 0xA9, 0, 0xAB, 0xAC, 0xAD, 0xAE, 0x2015,
     0xB0, 0xB1, 0xB2, 0xB3, 0x384, 0xB5, 0xB6, 0xB7, 0x388, 0x389, 0x38A, 0xBB,
     0x38C, 0xBD]
    ++ List.range' 0x38E 20
    ++ [0]
    ++ List.range' 0x3A3 44
    ++ [0]
  wellFormed := by decide +kernel

/-- windows-1254. -/
def windows1254 : CodePage where
  name := "windows-1254"
  row :=
    [0x20AC, 0x81, 0x201A, 0x192, 0x201E, 0x2026, 0x2020, 0x2021, 0x2C6, 0x2030, 0x160, 0x2039,
     0x152, 0x8D, 0x8E, 0x8F, 0x90, 0x2018, 0x2019, 0x201C, 0x201D, 0x2022, 0x2013, 0x2014,
     0x2DC, 0x2122, 0x161, 0x203A, 0x153, 0x9D, 0x9E, 0x178]
    ++ List.range' 0xA0 48
    ++ [0x11E, 0xD1, 0xD2, 0xD3, 0xD4, 0xD5, 0xD6, 0xD7, 0xD8, 0xD9, 0xDA, 0xDB,
     0xDC, 0x130, 0x15E]
    ++ List.range' 0xDF 17
    ++ [0x11F, 0xF1, 0xF2, 0xF3, 0xF4, 0xF5, 0xF6, 0xF7, 0xF8, 0xF9, 0xFA, 0xFB,
     0xFC, 0x131, 0x15F, 0xFF]
  wellFormed := by decide +kernel

/-- windows-1255. -/
def windows1255 : CodePage where
  name := "windows-1255"
  row :=
    [0x20AC, 0x81, 0x201A, 0x192, 0x201E, 0x2026, 0x2020, 0x2021, 0x2C6, 0x2030, 0x8A, 0x2039,
     0x8C, 0x8D, 0x8E, 0x8F, 0x90, 0x2018, 0x2019, 0x201C, 0x201D, 0x2022, 0x2013, 0x2014,
     0x2DC, 0x2122, 0x9A, 0x203A, 0x9C, 0x9D, 0x9E, 0x9F, 0xA0, 0xA1, 0xA2, 0xA3,
     0x20AA, 0xA5, 0xA6, 0xA7, 0xA8, 0xA9, 0xD7, 0xAB, 0xAC, 0xAD, 0xAE, 0xAF,
     0xB0, 0xB1, 0xB2, 0xB3, 0xB4, 0xB5, 0xB6, 0xB7, 0xB8, 0xB9, 0xF7, 0xBB,
     0xBC, 0xBD, 0xBE, 0xBF]
    ++ List.range' 0x5B0 20
    ++ [0x5F0, 0x5F1, 0x5F2, 0x5F3, 0x5F4, 0, 0, 0, 0, 0, 0, 0]
    ++ List.range' 0x5D0 27
    ++ [0, 0, 0x200E, 0x200F, 0]
  wellFormed := by decide +kernel

/-- windows-1256. -/
def windows1256 : CodePage where
  name := "windows-1256"
  row :=
    [0x20AC, 0x67E, 0x201A, 0x192, 0x201E, 0x2026, 0x2020, 0x2021, 0x2C6, 0x2030, 0x679, 0x2039,
     0x152, 0x686, 0x698, 0x688, 0x6AF, 0x2018, 0x2019, 0x201C, 0x201D, 0x2022, 0x2013, 0x2014,
     0x6A9, 0x2122, 0x691, 0x203A, 0x153, 0x200C, 0x200D, 0x6BA, 0xA0, 0x60C, 0xA2, 0xA3,
     0xA4, 0xA5, 0xA6, 0xA7, 0xA8, 0xA9, 0x6BE, 0xAB, 0xAC, 0xAD, 0xAE, 0xAF,
     0xB0, 0xB1, 0xB2, 0xB3, 0xB4, 0xB5, 0xB6, 0xB7, 0xB8, 0xB9, 0x61B, 0xBB,
     0xBC, 0xBD, 0xBE, 0x61F, 0x6C1]
    ++ List.range' 0x621 22
    ++ [0xD7, 0x637, 0x638, 0x639, 0x63A, 0x640, 0x641, 0x642, 0x643, 0xE0, 0x644, 0xE2,
     0x645, 0x646, 0x647, 0x648, 0xE7, 0xE8, 0xE9, 0xEA, 0xEB, 0x649, 0x64A, 0xEE,
     0xEF, 0x64B, 0x64C, 0x64D, 0x64E, 0xF4, 0x64F, 0x650, 0xF7, 0x651, 0xF9, 0x652,
     0xFB, 0xFC, 0x200E, 0x200F, 0x6D2]
  wellFormed := by decide +kernel

/-- windows-1257. -/
def windows1257 : CodePage where
  name := "windows-1257"
  row :=
    [0x20AC, 0x81, 0x201A, 0x83, 0x201E, 0x2026, 0x2020, 0x2021, 0x88, 0x2030, 0x8A, 0x2039,
     0x8C, 0xA8, 0x2C7, 0xB8, 0x90, 0x2018, 0x2019, 0x201C, 0x201D, 0x2022, 0x2013, 0x2014,
     0x98, 0x2122, 0x9A, 0x203A, 0x9C, 0xAF, 0x2DB, 0x9F, 0xA0, 0, 0xA2, 0xA3,
     0xA4, 0, 0xA6, 0xA7, 0xD8, 0xA9, 0x156, 0xAB, 0xAC, 0xAD, 0xAE, 0xC6,
     0xB0, 0xB1, 0xB2, 0xB3, 0xB4, 0xB5, 0xB6, 0xB7, 0xF8, 0xB9, 0x157, 0xBB,
     0xBC, 0xBD, 0xBE, 0xE6, 0x104, 0x12E, 0x100, 0x106, 0xC4, 0xC5, 0x118, 0x112,
     0x10C, 0xC9, 0x179, 0x116, 0x122, 0x136, 0x12A, 0x13B, 0x160, 0x143, 0x145, 0xD3,
     0x14C, 0xD5, 0xD6, 0xD7, 0x172, 0x141, 0x15A, 0x16A, 0xDC, 0x17B, 0x17D, 0xDF,
     0x105, 0x12F, 0x101, 0x107, 0xE4, 0xE5, 0x119, 0x113, 0x10D, 0xE9, 0x17A, 0x117,
     0x123, 0x137, 0x12B, 0x13C, 0x161, 0x144, 0x146, 0xF3, 0x14D, 0xF5, 0xF6, 0xF7,
     0x173, 0x142, 0x15B, 0x16B, 0xFC, 0x17C, 0x17E, 0x2D9]
  wellFormed := by decide +kernel

/-- windows-1258. -/
def windows1258 : CodePage where
  name := "windows-1258"
  row :=
    [0x20AC, 0x81, 0x201A, 0x192, 0x201E, 0x2026, 0x2020, 0x2021, 0x2C6, 0x2030, 0x8A, 0x2039,
     0x152, 0x8D, 0x8E, 0x8F, 0x90, 0x2018, 0x2019, 0x201C, 0x201D, 0x2022, 0x2013, 0x2014,
     0x2DC, 0x2122, 0x9A, 0x203A, 0x153, 0x9D, 0x9E, 0x178]
    ++ List.range' 0xA0 35
    ++ [0x102, 0xC4, 0xC5, 0xC6, 0xC7, 0xC8, 0xC9, 0xCA, 0xCB, 0x300, 0xCD, 0xCE,
     0xCF, 0x110, 0xD1, 0x309, 0xD3, 0xD4, 0x1A0, 0xD6, 0xD7, 0xD8, 0xD9, 0xDA,
     0xDB, 0xDC, 0x1AF, 0x303, 0xDF, 0xE0, 0xE1, 0xE2, 0x103, 0xE4, 0xE5, 0xE6,
     0xE7, 0xE8, 0xE9, 0xEA, 0xEB, 0x301, 0xED, 0xEE, 0xEF, 0x111, 0xF1, 0x323,
     0xF3, 0xF4, 0x1A1, 0xF6, 0xF7, 0xF8, 0xF9, 0xFA, 0xFB, 0xFC, 0x1B0, 0x20AB,
     0xFF]
  wellFormed := by decide +kernel

/-- x-mac-cyrillic. -/
def macCyrillic : CodePage where
  name := "x-mac-cyrillic"
  row :=
    List.range' 0x410 32
    ++ [0x2020, 0xB0, 0x490, 0xA3, 0xA7, 0x2022, 0xB6, 0x406, 0xAE, 0xA9, 0x2122, 0x402,
     0x452, 0x2260, 0x403, 0x453, 0x221E, 0xB1, 0x2264, 0x2265, 0x456, 0xB5, 0x491, 0x408,
     0x404, 0x454, 0x407, 0x457, 0x409, 0x459, 0x40A, 0x45A, 0x458, 0x405, 0xAC, 0x221A,
     0x192, 0x2248, 0x2206, 0xAB, 0xBB, 0x2026, 0xA0, 0x40B, 0x45B, 0x40C, 0x45C, 0x455,
     0x2013, 0x2014, 0x201C, 0x201D, 0x2018, 0x2019, 0xF7, 0x201E, 0x40E, 0x45E, 0x40F, 0x45F,
     0x2116, 0x401, 0x451, 0x44F]
    ++ List.range' 0x430 31
    ++ [0x20AC]
  wellFormed := by decide +kernel

/-- x-user-defined. -/
def userDefined : CodePage where
  name := "x-user-defined"
  row :=
    List.range' 0xF780 128
  wellFormed := by decide +kernel

end MarkerBlock.CodePage
