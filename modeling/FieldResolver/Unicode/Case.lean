/-
**Letter case.**

The upper and lower case of a character may be several characters. A capital sigma at the end of a
word has a lower case of its own. Folding picks one character from those that differ only in case.
-/

import FieldResolver.Unicode.Packed

namespace FieldResolver.Unicode

/-- Pairs of a code point and its image from the gaps between code points and the distances to the
images, which are doubled, less one when they lead down. -/
def images (start : Nat) : List Nat → List (Nat × Nat)
  | gap :: distance :: rest =>
    let code := start + gap
    let image := if distance % 2 = 0 then code + distance / 2 else code - (distance + 1) / 2
    (code, image) :: images (code + 1) rest
  | _ => []

/-- The pairs of a packed mapping. -/
def unpackImages (text : String) : Array (Nat × Nat) := (images 0 (numbers text)).toArray

/-- The image of a code point, itself if the mapping has none. -/
def image (table : Array (Nat × Nat)) (code : Nat) : Nat :=
  match lastUpTo? table code with
  | some (key, value) => if key = code then value else code
  | none => code

/-- Upper case where it is one other character. -/
def upperImages : Array (Nat × Nat) :=
  unpackImages (String.join
   ["gBdPAdPAdPAdPAdPAdPAdPAdPAdPAdPAdPAdPAdPAdPAdPAdPAdPAdPAdPAdPAdPAdPAdPAdPAdPAdPdKfmOcKdPAdPA",
    "dPAdPAdPAdPAdPAdPAdPAdPAdPAdPAdPAdPAdPAdPAdPAdPAdPAdPAdPAdPAdPBdPAdPAdPAdPAdPAdPAdPApCBBBBBB",
    "BBBBBBBBBBBBBBBBBBBBBBBBBBBBBBBBBBBBBBBBBBBbmPBBBBBBCBBBBBBBBBBBBBBBCBBBBBBBBBBBBBBBBBBBBBBB",
    "BBBBBBBBBBBBBBBBBBBBBBCBBBBBAcfHAbiGCBBBCBDBFBCmCDBAbeGAbemiCCbaECBBBBBCBEBCBDBBBCBDBBhAFBAD",
    "BBADBBADBBBBBBBBBBBBBBBBAjNBBBBBBBBBBBBBBBBBBCBADBBDBBBBBBBBBBBBBBBBBBBBBBBBBBBBBBBBBBBBBBBD",
    "BBBBBBBBBBBBBBBBBIBCfehOAfehOBBEBBBBBBBBBAfedOAfedIAfedMAbkDAbjLBbjJAbjJBbjDBbjFAbekjODbjJAb",
    "ekjGBbjNAbekmOAbekfAAbekiIBbkBAbkFAbekiIAfdoOAbekiCCbkFBfdpKAbkJCbkLHfdmOCblDBbekiGAblDDbekf",
    "EAblDAiJAblBAblBAiNFblFKbekcKAbekcEkGkIcLBBBDBDbaEAbaEAbaEcOeLAeJAeJAeJBdPAdPAdPAdPAdPAdPAdP",
    "AdPAdPAdPAdPAdPAdPAdPAdPAdPAdPAdNAdPAdPAdPAdPAdPAdPAdPAdPAdPAhPAhNAhNBhLAhBDfNAgLAPBBBBBBBBB",
    "BBBBBBBBBBBBBBBAkLAjPAOAoHBlPCBCBdEdPAdPAdPAdPAdPAdPAdPAdPAdPAdPAdPAdPAdPAdPAdPAdPAdPAdPAdPA",
    "dPAdPAdPAdPAdPAdPAdPAdPAdPAdPAdPAdPAdPAjPAjPAjPAjPAjPAjPAjPAjPAjPAjPAjPAjPAjPAjPAjPAjPBBBBBB",
    "BBBBBBBBBBBBBBBBBBBBBBBBBBBBJBBBBBBBBBBBBBBBBBBBBBBBBBBBBBBBBBBBBBBBBBBBBBBBBBBBBBCBBBBBBBBB",
    "BBBBAbNBBBBBBBBBBBBBBBBBBBBBBBBBBBBBBBBBBBBBBBBBBBBBBBBBBBBBBBBBBBBBBBBBBBBBBBBBBBBBBBBBBBBB",
    "BBBBBBBBBBBdBfPAfPAfPAfPAfPAfPAfPAfPAfPAfPAfPAfPAfPAfPAfPAfPAfPAfPAfPAfPAfPAfPAfPAfPAfPAfPAf",
    "PAfPAfPAfPAfPAfPAfPAfPAfPAfPAfPAfPleJbhiAAbhiAAbhiAAbhiAAbhiAAbhiAAbhiAAbhiAAbhiAAbhiAAbhiAA",
    "bhiAAbhiAAbhiAAbhiAAbhiAAbhiAAbhiAAbhiAAbhiAAbhiAAbhiAAbhiAAbhiAAbhiAAbhiAAbhiAAbhiAAbhiAAbh",
    "iAAbhiAAbhiAAbhiAAbhiAAbhiAAbhiAAbhiAAbhiAAbhiAAbhiAAbhiAAbhiAAbhiACbhiAAbhiAAbhiAcpIPAPAPAP",
    "APAPiiCdanLAdanJAdamHAdamDAdamDAdamFAdalHAdaeJAbbdiEBBoObbeaIDbnmMbAbbehAhCBBBBBBBBBBBBBBBBB",
    "BBBBBBBBBBBBBBBBBBBBBBBBBBBBBBBBBBBBBBBBBBBBBBBBBBBBBBBBBBBBBBBBBBBBBBBBBBBBBBBBBBBBBBBBBBBB",
    "BBBBBBBBBBBBBBBBBBBBBBBBBBBBBBBBBBBBBBBBFhFFBBBBBBBBBBBBBBBBBBBBBBBBBBBBBBBBBBBBBBBBBBBBBBBB",
    "BBBBBBBBBBBBBBBBBBBBBBBBBBBBBBBBBBBBBBBBBBBBBBBAbAAbAAbAAbAAbAAbAAbAAbAIbAAbAAbAAbAAbAAbAKbA",
    "AbAAbAAbAAbAAbAAbAAbAIbAAbAAbAAbAAbAAbAAbAAbAIbAAbAAbAAbAAbAAbALbABbABbABbAIbAAbAAbAAbAAbAAb",
    "AAbAAbAIjEAjEAkMAkMAkMAkMAmIAmIAbaAAbaAAoAAoAApMApMdCbAAbAMdieJbBbAAbAObAAbADObgIdHcBbPAbPAb",
    "PAbPAbPAbPAbPAbPAbPAbPAbPAbPAbPAbPAbPAbPEBdeLdDAdDAdDAdDAdDAdDAdDAdDAdDAdDAdDAdDAdDAdDAdDAdD",
    "AdDAdDAdDAdDAdDAdDAdDAdDAdDAdDheGfPAfPAfPAfPAfPAfPAfPAfPAfPAfPAfPAfPAfPAfPAfPAfPAfPAfPAfPAfP",
    "AfPAfPAfPAfPAfPAfPAfPAfPAfPAfPAfPAfPAfPAfPAfPAfPAfPAfPAfPAfPAfPAfPAfPAfPAfPAfPAfPAfPBBDfefFA",
    "feePBBBBBBGBCBKBBBBBBBBBBBBBBBBBBBBBBBBBBBBBBBBBBBBBBBBBBBBBBBBBBBBBBBBBBBBBBBBBBBBBBBBBBBBB",
    "BBBBBBBBBBBBBBBBBBBBBBIBBBEBMdilPAdilPAdilPAdilPAdilPAdilPAdilPAdilPAdilPAdilPAdilPAdilPAdil",
    "PAdilPAdilPAdilPAdilPAdilPAdilPAdilPAdilPAdilPAdilPAdilPAdilPAdilPAdilPAdilPAdilPAdilPAdilPA",
    "dilPAdilPAdilPAdilPAdilPAdilPAdilPBdilPFdilPhjbDBBBBBBBBBBBBBBBBBBBBBBBBBBBBBBBBBBBBBBBBBBBB",
    "BbDBBBBBBBBBBBBBBBBBBBBBBBBBBBiHBBBBBBBBBBBBBDBBBBBBBBBBBBBBBBBBBBBBBBBBBBBBBBBBBBBBBBBBBBBB",
    "BBBBBBBBBBBBBBBKBBBCBBBBBBBBBEBEBBBAgACBBBBBBBBBBBBBBBBBBBLBBBBBBBBBBBBBBBEBBBCBBBBBBBBBBBBB",
    "BBbKBdfMhdPbMbcpjPAbcpjPAbcpjPAbcpjPAbcpjPAbcpjPAbcpjPAbcpjPAbcpjPAbcpjPAbcpjPAbcpjPAbcpjPAb",
    "cpjPAbcpjPAbcpjPAbcpjPAbcpjPAbcpjPAbcpjPAbcpjPAbcpjPAbcpjPAbcpjPAbcpjPAbcpjPAbcpjPAbcpjPAbcp",
    "jPAbcpjPAbcpjPAbcpjPAbcpjPAbcpjPAbcpjPAbcpjPAbcpjPAbcpjPAbcpjPAbcpjPAbcpjPAbcpjPAbcpjPAbcpjP",
    "AbcpjPAbcpjPAbcpjPAbcpjPAbcpjPAbcpjPAbcpjPAbcpjPAbcpjPAbcpjPAbcpjPAbcpjPAbcpjPAbcpjPAbcpjPAb",
    "cpjPAbcpjPAbcpjPAbcpjPAbcpjPAbcpjPAbcpjPAbcpjPAbcpjPAbcpjPAbcpjPAbcpjPAbcpjPAbcpjPAbcpjPAbcp",
    "jPAbcpjPAbcpjPAbcpjPAbcpjPAbcpjPfdiBdPAdPAdPAdPAdPAdPAdPAdPAdPAdPAdPAdPAdPAdPAdPAdPAdPAdPAdP",
    "AdPAdPAdPAdPAdPAdPAdPemNePAePAePAePAePAePAePAePAePAePAePAePAePAePAePAePAePAePAePAePAePAePAeP",
    "AePAePAePAePAePAePAePAePAePAePAePAePAePAePAePAePAePiIePAePAePAePAePAePAePAePAePAePAePAePAePA",
    "ePAePAePAePAePAePAePAePAePAePAePAePAePAePAePAePAePAePAePAePAePAePAePjLeNAeNAeNAeNAeNAeNAeNAe",
    "NAeNAeNAeNBeNAeNAeNAeNAeNAeNAeNAeNAeNAeNAeNAeNAeNAeNAeNBeNAeNAeNAeNAeNAeNAeNBeNAeNhaDhPAhPAh",
    "PAhPAhPAhPAhPAhPAhPAhPAhPAhPAhPAhPAhPAhPAhPAhPAhPAhPAhPAhPAhPAhPAhPAhPAhPAhPAhPAhPAhPAhPAhPA",
    "hPAhPAhPAhPAhPAhPAhPAhPAhPAhPAhPAhPAhPAhPAhPAhPAhPAhPhNdPAdPAdPAdPAdPAdPAdPAdPAdPAdPAdPAdPAd",
    "PAdPAdPAdPAdPAdPAdPAdPAdPAdPldKdPAdPAdPAdPAdPAdPAdPAdPAdPAdPAdPAdPAdPAdPAdPAdPAdPAdPAdPAdPAd",
    "PAdPAdPAdPAdPAdPAdPAdPAdPAdPAdPAdPffiAdPAdPAdPAdPAdPAdPAdPAdPAdPAdPAdPAdPAdPAdPAdPAdPAdPAdPA",
    "dPAdPAdPAdPAdPAdPAdPAdPAdPAdPAdPAdPAdPAdPdLdFAdFAdFAdFAdFAdFAdFAdFAdFAdFAdFAdFAdFAdFAdFAdFAd",
    "FAdFAdFAdFAdFAdFAdFAdFAdFhkeOeDAeDAeDAeDAeDAeDAeDAeDAeDAeDAeDAeDAeDAeDAeDAeDAeDAeDAeDAeDAeDA",
    "eDAeDAeDAeDAeDAeDAeDAeDAeDAeDAeDAeDAeD"])

/-- Upper case where it is several characters. -/
def upperSequences : List (Nat × List Nat) :=
  [(0xDF, [0x53, 0x53]), (0x149, [0x2BC, 0x4E]), (0x1F0, [0x4A, 0x30C]),
   (0x390, [0x399, 0x308, 0x301]), (0x3B0, [0x3A5, 0x308, 0x301]), (0x587, [0x535, 0x552]),
   (0x1E96, [0x48, 0x331]), (0x1E97, [0x54, 0x308]), (0x1E98, [0x57, 0x30A]),
   (0x1E99, [0x59, 0x30A]), (0x1E9A, [0x41, 0x2BE]), (0x1F50, [0x3A5, 0x313]),
   (0x1F52, [0x3A5, 0x313, 0x300]), (0x1F54, [0x3A5, 0x313, 0x301]),
   (0x1F56, [0x3A5, 0x313, 0x342]), (0x1F80, [0x1F08, 0x399]), (0x1F81, [0x1F09, 0x399]),
   (0x1F82, [0x1F0A, 0x399]), (0x1F83, [0x1F0B, 0x399]), (0x1F84, [0x1F0C, 0x399]),
   (0x1F85, [0x1F0D, 0x399]), (0x1F86, [0x1F0E, 0x399]), (0x1F87, [0x1F0F, 0x399]),
   (0x1F88, [0x1F08, 0x399]), (0x1F89, [0x1F09, 0x399]), (0x1F8A, [0x1F0A, 0x399]),
   (0x1F8B, [0x1F0B, 0x399]), (0x1F8C, [0x1F0C, 0x399]), (0x1F8D, [0x1F0D, 0x399]),
   (0x1F8E, [0x1F0E, 0x399]), (0x1F8F, [0x1F0F, 0x399]), (0x1F90, [0x1F28, 0x399]),
   (0x1F91, [0x1F29, 0x399]), (0x1F92, [0x1F2A, 0x399]), (0x1F93, [0x1F2B, 0x399]),
   (0x1F94, [0x1F2C, 0x399]), (0x1F95, [0x1F2D, 0x399]), (0x1F96, [0x1F2E, 0x399]),
   (0x1F97, [0x1F2F, 0x399]), (0x1F98, [0x1F28, 0x399]), (0x1F99, [0x1F29, 0x399]),
   (0x1F9A, [0x1F2A, 0x399]), (0x1F9B, [0x1F2B, 0x399]), (0x1F9C, [0x1F2C, 0x399]),
   (0x1F9D, [0x1F2D, 0x399]), (0x1F9E, [0x1F2E, 0x399]), (0x1F9F, [0x1F2F, 0x399]),
   (0x1FA0, [0x1F68, 0x399]), (0x1FA1, [0x1F69, 0x399]), (0x1FA2, [0x1F6A, 0x399]),
   (0x1FA3, [0x1F6B, 0x399]), (0x1FA4, [0x1F6C, 0x399]), (0x1FA5, [0x1F6D, 0x399]),
   (0x1FA6, [0x1F6E, 0x399]), (0x1FA7, [0x1F6F, 0x399]), (0x1FA8, [0x1F68, 0x399]),
   (0x1FA9, [0x1F69, 0x399]), (0x1FAA, [0x1F6A, 0x399]), (0x1FAB, [0x1F6B, 0x399]),
   (0x1FAC, [0x1F6C, 0x399]), (0x1FAD, [0x1F6D, 0x399]), (0x1FAE, [0x1F6E, 0x399]),
   (0x1FAF, [0x1F6F, 0x399]), (0x1FB2, [0x1FBA, 0x399]), (0x1FB3, [0x391, 0x399]),
   (0x1FB4, [0x386, 0x399]), (0x1FB6, [0x391, 0x342]), (0x1FB7, [0x391, 0x342, 0x399]),
   (0x1FBC, [0x391, 0x399]), (0x1FC2, [0x1FCA, 0x399]), (0x1FC3, [0x397, 0x399]),
   (0x1FC4, [0x389, 0x399]), (0x1FC6, [0x397, 0x342]), (0x1FC7, [0x397, 0x342, 0x399]),
   (0x1FCC, [0x397, 0x399]), (0x1FD2, [0x399, 0x308, 0x300]), (0x1FD3, [0x399, 0x308, 0x301]),
   (0x1FD6, [0x399, 0x342]), (0x1FD7, [0x399, 0x308, 0x342]), (0x1FE2, [0x3A5, 0x308, 0x300]),
   (0x1FE3, [0x3A5, 0x308, 0x301]), (0x1FE4, [0x3A1, 0x313]), (0x1FE6, [0x3A5, 0x342]),
   (0x1FE7, [0x3A5, 0x308, 0x342]), (0x1FF2, [0x1FFA, 0x399]), (0x1FF3, [0x3A9, 0x399]),
   (0x1FF4, [0x38F, 0x399]), (0x1FF6, [0x3A9, 0x342]), (0x1FF7, [0x3A9, 0x342, 0x399]),
   (0x1FFC, [0x3A9, 0x399]), (0xFB00, [0x46, 0x46]), (0xFB01, [0x46, 0x49]),
   (0xFB02, [0x46, 0x4C]), (0xFB03, [0x46, 0x46, 0x49]), (0xFB04, [0x46, 0x46, 0x4C]),
   (0xFB05, [0x53, 0x54]), (0xFB06, [0x53, 0x54]), (0xFB13, [0x544, 0x546]),
   (0xFB14, [0x544, 0x535]), (0xFB15, [0x544, 0x53B]), (0xFB16, [0x54E, 0x546]),
   (0xFB17, [0x544, 0x53D])]

/-- Lower case where it is one other character. -/
def lowerImages : Array (Nat × Nat) :=
  unpackImages (String.join
   ["eBeAAeAAeAAeAAeAAeAAeAAeAAeAAeAAeAAeAAeAAeAAeAAeAAeAAeAAeAAeAAeAAeAAeAAeAAeAAeAgFeAAeAAeAAeA",
    "AeAAeAAeAAeAAeAAeAAeAAeAAeAAeAAeAAeAAeAAeAAeAAeAAeAAeAAeABeAAeAAeAAeAAeAAeAAeAcBCBCBCBCBCBCB",
    "CBCBCBCBCBCBCBCBCBCBCBCBCBCBCBCBCBCDCBCBCCCBCBCBCBCBCBCBCCCBCBCBCBCBCBCBCBCBCBCBCBCBCBCBCBCB",
    "CBCBCBCBCBCBpBACBCBCDbkEACBCBbjMACBbjKAbjKACCjOAbjEAbjGACBbjKAbjOBbkGAbkCACDbkGAbkKBbkMACBCB",
    "CBblEACBblECCBblEACBblCAblCACBCBblGACDCHEACBEACBEACBCBCBCBCBCBCBCBCCCBCBCBCBCBCBCBCBCCEACBCB",
    "mBAgPACBCBCBCBCBCBCBCBCBCBCBCBCBCBCBCBCBCBCBCBbaDBCBCBCBCBCBCBCBCBCHfefGACBbeFAfefACCBbiFAiK",
    "AiOACBCBCBCBCbcBCBCDCIoIGeMBeKAeKAeKBiABhOAhOBeAAeAAeAAeAAeAAeAAeAAeAAeAAeAAeAAeAAeAAeAAeAAe",
    "AAeABeAAeAAeAAeAAeAAeAAeAAeAAeAcDbAICBCBCBCBCBCBCBCBCBCBCBCFhHCCBNACCbaDAbaDAbaDAkAAkAAkAAkA",
    "AkAAkAAkAAkAAkAAkAAkAAkAAkAAkAAkAAkAAeAAeAAeAAeAAeAAeAAeAAeAAeAAeAAeAAeAAeAAeAAeAAeAAeAAeAAe",
    "AAeAAeAAeAAeAAeAAeAAeAAeAAeAAeAAeAAeAAeAdACBCBCBCBCBCBCBCBCBCBCBCBCBCBCBCBCJCBCBCBCBCBCBCBCB",
    "CBCBCBCBCBCBCBCBCBCBCBCBCBCBCBCBCBCBCBbOACBCBCBCBCBCBCCCBCBCBCBCBCBCBCBCBCBCBCBCBCBCBCBCBCBC",
    "BCBCBCBCBCBCBCBCBCBCBCBCBCBCBCBCBCBCBCBCBCBCBCBCBCBCBCBCBCCgAAgAAgAAgAAgAAgAAgAAgAAgAAgAAgAA",
    "gAAgAAgAAgAAgAAgAAgAAgAAgAAgAAgAAgAAgAAgAAgAAgAAgAAgAAgAAgAAgAAgAAgAAgAAgAAgAAgAleJdimAAdimA",
    "AdimAAdimAAdimAAdimAAdimAAdimAAdimAAdimAAdimAAdimAAdimAAdimAAdimAAdimAAdimAAdimAAdimAAdimAAd",
    "imAAdimAAdimAAdimAAdimAAdimAAdimAAdimAAdimAAdimAAdimAAdimAAdimAAdimAAdimAAdimAAdimAAdimABdim",
    "AFdimAcnCbcpkAAbcpkAAbcpkAAbcpkAAbcpkAAbcpkAAbcpkAAbcpkAAbcpkAAbcpkAAbcpkAAbcpkAAbcpkAAbcpkA",
    "AbcpkAAbcpkAAbcpkAAbcpkAAbcpkAAbcpkAAbcpkAAbcpkAAbcpkAAbcpkAAbcpkAAbcpkAAbcpkAAbcpkAAbcpkAAb",
    "cpkAAbcpkAAbcpkAAbcpkAAbcpkAAbcpkAAbcpkAAbcpkAAbcpkAAbcpkAAbcpkAAbcpkAAbcpkAAbcpkAAbcpkAAbcp",
    "kAAbcpkAAbcpkAAbcpkAAbcpkAAbcpkAAbcpkAAbcpkAAbcpkAAbcpkAAbcpkAAbcpkAAbcpkAAbcpkAAbcpkAAbcpkA",
    "AbcpkAAbcpkAAbcpkAAbcpkAAbcpkAAbcpkAAbcpkAAbcpkAAbcpkAAbcpkAAbcpkAAbcpkAAbcpkAAbcpkAAbcpkAAb",
    "cpkAAbcpkAAbcpkAAbcpkAAbcpkAAbAAbAAbAAbAAbAAbAijDCGbhhPAbhhPAbhhPAbhhPAbhhPAbhhPAbhhPAbhhPAb",
    "hhPAbhhPAbhhPAbhhPAbhhPAbhhPAbhhPAbhhPAbhhPAbhhPAbhhPAbhhPAbhhPAbhhPAbhhPAbhhPAbhhPAbhhPAbhh",
    "PAbhhPAbhhPAbhhPAbhhPAbhhPAbhhPAbhhPAbhhPAbhhPAbhhPAbhhPAbhhPAbhhPAbhhPAbhhPAbhhPCbhhPAbhhPA",
    "bhhPbeACBCBCBCBCBCBCBCBCBCBCBCBCBCBCBCBCBCBCBCBCBCBCBCBCBCBCBCBCBCBCBCBCBCBCBCBCBCBCBCBCBCBC",
    "BCBCBCBCBCBCBCBCBCBCBCBCBCBCBCBCBCBCBCBCBCBCBCBCBCBCBCBCBCBCBCBCJdlhNBCBCBCBCBCBCBCBCBCBCBCB",
    "CBCBCBCBCBCBCBCBCBCBCBCBCBCBCBCBCBCBCBCBCBCBCBCBCBCBCBCBCBCBCBCBCBCBCBCBCJPAPAPAPAPAPAPAPIPA",
    "PAPAPAPAPKPAPAPAPAPAPAPAPIPAPAPAPAPAPAPAPIPAPAPAPAPAPLPBPBPBPIPAPAPAPAPAPAPAPbIPAPAPAPAPAPAP",
    "APIPAPAPAPAPAPAPAPIPAPAPAPAPAPAPAPIPAPAjDAjDAbBLkLAkLAkLAkLAbBLPAPAmHAmHMPAPAnPAnPANLpPApPAp",
    "LApLAbBbcJdklJDebhNAeaiLGdIcNcAAcAAcAAcAAcAAcAAcAAcAAcAAcAAcAAcAAcAAcAAcAAcAbDCddCdEAdEAdEAd",
    "EAdEAdEAdEAdEAdEAdEAdEAdEAdEAdEAdEAdEAdEAdEAdEAdEAdEAdEAdEAdEAdEAdEhdAgAAgAAgAAgAAgAAgAAgAAg",
    "AAgAAgAAgAAgAAgAAgAAgAAgAAgAAgAAgAAgAAgAAgAAgAAgAAgAAgAAgAAgAAgAAgAAgAAgAAgAAgAAgAAgAAgAAgAA",
    "gAAgAAgAAgAAgAAgAAgAAgAAgAAgAdACBfdoNAbnmLAfdmNCCBCBCBfedHAfdpJAfedNAfedLBCCCIfehNAfehNACBCB",
    "CBCBCBCBCBCBCBCBCBCBCBCBCBCBCBCBCBCBCBCBCBCBCBCBCBCBCBCBCBCBCBCBCBCBCBCBCBCBCBCBCBCBCBCBCBCB",
    "CBCICBCEChjeNCBCBCBCBCBCBCBCBCBCBCBCBCBCBCBCBCBCBCBCBCBCBCbDCBCBCBCBCBCBCBCBCBCBCBCBCBCiHCBC",
    "BCBCBCBCBCDCBCBCBCBCBCBCBCBCBCBCBCBCBCBCBCBCBCBCBCBCBCBCBCBCBCBCBCBCBCBCKCBCBbbeaHACBCBCBCBC",
    "ECBbekePCCBCDCBCBCBCBCBCBCBCBCBCBbekiHAbekjNAbekjFAbekiBAbekiHBbekcDAbekfDAbekcJAheAACBCBCBC",
    "BCBCBCBCBfPAbekiFAbbegPACBCBbekmNACBCBCBCBCBCBCBCBbemiBbICfhcLeAAeAAeAAeAAeAAeAAeAAeAAeAAeAA",
    "eAAeAAeAAeAAeAAeAAeAAeAAeAAeAAeAAeAAeAAeAAeAAeAemFfAAfAAfAAfAAfAAfAAfAAfAAfAAfAAfAAfAAfAAfAA",
    "fAAfAAfAAfAAfAAfAAfAAfAAfAAfAAfAAfAAfAAfAAfAAfAAfAAfAAfAAfAAfAAfAAfAAfAAfAAfAiIfAAfAAfAAfAAf",
    "AAfAAfAAfAAfAAfAAfAAfAAfAAfAAfAAfAAfAAfAAfAAfAAfAAfAAfAAfAAfAAfAAfAAfAAfAAfAAfAAfAAfAAfAAfAA",
    "fAjMeOAeOAeOAeOAeOAeOAeOAeOAeOAeOAeOBeOAeOAeOAeOAeOAeOAeOAeOAeOAeOAeOAeOAeOAeOAeOBeOAeOAeOAe",
    "OAeOAeOAeOBeOAeOgoKiAAiAAiAAiAAiAAiAAiAAiAAiAAiAAiAAiAAiAAiAAiAAiAAiAAiAAiAAiAAiAAiAAiAAiAAi",
    "AAiAAiAAiAAiAAiAAiAAiAAiAAiAAiAAiAAiAAiAAiAAiAAiAAiAAiAAiAAiAAiAAiAAiAAiAAiAAiAjNeAAeAAeAAeA",
    "AeAAeAAeAAeAAeAAeAAeAAeAAeAAeAAeAAeAAeAAeAAeAAeAAeAAeAldKeAAeAAeAAeAAeAAeAAeAAeAAeAAeAAeAAeA",
    "AeAAeAAeAAeAAeAAeAAeAAeAAeAAeAAeAAeAAeAAeAAeAAeAAeAAeAAeAAeAffiAeAAeAAeAAeAAeAAeAAeAAeAAeAAe",
    "AAeAAeAAeAAeAAeAAeAAeAAeAAeAAeAAeAAeAAeAAeAAeAAeAAeAAeAAeAAeAAeAAeAeAdGAdGAdGAdGAdGAdGAdGAdG",
    "AdGAdGAdGAdGAdGAdGAdGAdGAdGAdGAdGAdGAdGAdGAdGAdGAdGhkeHeEAeEAeEAeEAeEAeEAeEAeEAeEAeEAeEAeEAe",
    "EAeEAeEAeEAeEAeEAeEAeEAeEAeEAeEAeEAeEAeEAeEAeEAeEAeEAeEAeEAeEAeE"])

/-- Lower case where it is several characters. -/
def lowerSequences : List (Nat × List Nat) :=
  [(0x130, [0x69, 0x307])]

/-- The upper case of a character. -/
def upper (c : Char) : List Char :=
  if c.toNat < 128 then [c.toUpper]
  else match upperSequences.lookup c.toNat with
    | some codes => codes.map Char.ofNat
    | none => [Char.ofNat (image upperImages c.toNat)]

/-- The lower case of a character that stands alone. -/
def lower (c : Char) : List Char :=
  if c.toNat < 128 then [c.toLower]
  else match lowerSequences.lookup c.toNat with
    | some codes => codes.map Char.ofNat
    | none => [Char.ofNat (image lowerImages c.toNat)]

/-- The characters that have case. -/
def cased : Array (Nat × Nat) :=
  unpackRanges (String.join
   ["eBbJGbJcPAKAEAFbGBbOBmCBDEmPCcCHBbOEgAAcKDCBCDBAGABCBABbDBfCBiKIkFBcFJcIlbHcFBAFACcKBDckAfFC",
    "FiiCKFcKCCeAlPeAbbFCFCcFCFCHBABABABbOCdEBGBADCBGDDCFEMFCBGhEANAbAMgFAEACJBADEGABABABDBFEACDF",
    "EEAbBbPDBddBdDhbGoEGDDBMcFBAFAhjbCcNbCbNiEgFDDBeMbEFBCddFcKBNGePepeAGMEeaJbJGbJekFePgAcDEcDh",
    "EKBOBGBBBKBOBGBBbmDACCBcJBIemFdCNdCfNbFKbFlbKdPffgAdPcAbICbIgfcMfEBeGBBCACBCDBLBABGBeABDCHBG",
    "BbLBDBEBADGBbfDCbIBbIBbOBbIBbOBbIBbOBbIBbOBbIBHhdEJBbDGFbaFdNijCeDhoMbJGbJGbJ"])

/-- The characters that are passed over when a word is looked at for its case. -/
def caseIgnorable : Array (Nat × Nat) :=
  unpackRanges (String.join
   ["cHAGALAcDABAeHAEABAEACBbpHlPEBEAJBBApLGmPAFAdBcMBABBBBBAcMALFKKBAcDAKbEbAAgFHBJBDcBABAbObKfL",
    "KdKKEACAbIbHcLCcMAHBFIcJdJdHABAEHEADGKBNAPAdKAEDIAbEBbKACBdJAEBEBCCDAbOBDALBdJAEEBBEAbEBbGFB",
    "AdKACABDIAHBLBbOAdNAMAdCADAdHABCFCBDHBLBbNAdKACAGAFBbEBbMBdJBEDIAbEBbNAeIAHCBAfKACGLIgCACIJA",
    "BGeJBbLABABAdHNBEBBFKBcDJAgGDBFBBCBbJBECbADNACBGAPAfOAcgACdlCCbNBbOBbOBeABBGIACKDAFAcNEdDAeB",
    "BcCAhGCEBJAGCnLBCAdKABGBABACHGJCAcHAIcNCLbEDdAABEBAFAcIIMBcADCBBCdIABBDABCdKHCBeAFfCCBMBGEAG",
    "ADBdCdONAcCgEblNABCLCNCNCNBMEIBKACACEdBEBJBANAbAMdDcAliLBhBChNAPAgAbPcPAbnFAcEDDEFAfNFfNCgpb",
    "GAeoCFbaOAgCDBJBAbMDfABOcBeOAbHCgGDDBIADAEAbJBFAjHBbKbBNAcGHbJKcOCdAACDCBbBAbFBeCFCBCBMAIAcD",
    "ALAdDABCCBFBBAbLAOBFBBAgEEJChJACAEAepdAAjDbAcdNPDAMPcCACAkJAHAGALAcDABAcPAcNBeDAbFCcaBAoCAjF",
    "EeaFFBcJBIceGCBBFDcICEAkFBcdNDcGAbKEBAbdLBbIAdEFeGKdBDhLAdGOcJACBKCdBDCBCAEAKAdCCcEEBHdOAMBd",
    "EIKDCAfPCCABBGACAjNADHbFBdJBDAcFGDEeGFNABABAOBfFHCCBAbHAfEFBAEBBBoODGBBBbLBfFHCABBgKABACFBAg",
    "FABACDBEbaDIBBbaABBAEAjADCBEAcAJcIFCDIAJFCCcOMBBmGABCBAmJGBFBAfCbFCGBBBBhKFDABBBGBAeIBDABAeB",
    "AbbJBLBdEEFABAbHAbenFbAGOcmmILDCjmAEdLGJDbpMCcIBboCAdPbAeABBBNBdppMDBGBBmjOBBDbcfMcNCbGccACJ",
    "PCGbODjEChlLdGEdBIAOAbGEBOffAGBbACGBBBEFdNcBAkANbhAAdNDbpLEpOBpDACAHBFAJAbnAGgNHkkPEmamaBAbO",
    "fPiAoP"])

/-- Whether the first character that is not passed over has case. -/
def casedFirst (text : List Char) : Bool :=
  match text.dropWhile (fun c => inRanges caseIgnorable c.toNat) with
  | c :: _ => inRanges cased c.toNat
  | [] => false

/-- The lower case of a text, given the characters in front of it, the nearest first. -/
def lowerAfter (before : List Char) : List Char → List Char
  | [] => []
  | c :: rest =>
    let image :=
      if c.toNat = 0x3A3 then
        if casedFirst before && !casedFirst rest then [Char.ofNat 0x3C2] else [Char.ofNat 0x3C3]
      else lower c
    image ++ lowerAfter (c :: before) rest

/-- The lower case of a string. -/
def lowercase (text : String) : String := String.ofList (lowerAfter [] text.toList)

/-- The upper case of a string. -/
def uppercase (text : String) : String := String.ofList (text.toList.flatMap upper)

/-- Pairs of a code point and the least one that differs from it only in case, from the gaps
between code points and the distances. -/
def folds (start : Nat) : List Nat → List (Nat × Nat)
  | gap :: distance :: rest =>
    let code := start + gap
    (code, code - distance) :: folds (code + 1) rest
  | _ => []

/-- The characters that are not the least of those that differ only in case. -/
def foldImages : Array (Nat × Nat) :=
  (folds 0 (numbers (String.join
   ["gBcAAcAAcAAcAAcAAcAAcAAcAAcAAcAAcAAcAAcAAcAAcAAcAAcAAcAAcAAcAAcAAcAAcAAcAAcAAcAgFcAAcAAcAAcA",
    "AcAAcAAcAAcAAcAAcAAcAAcAAcAAcAAcAAcAAcAAcAAcAAcAAcAAcAAcABcAAcAAcAAcAAcAAcAAcACBBBBBBBBBBBBB",
    "BBBBBBBBBBBBBBBBBBBBBBBBBBBBBBBBBBDBBBBBCBBBBBBBBBBBBBBBCBBBBBBBBBBBBBBBBBBBBBBBBBBBBBBBBBBB",
    "BBBBBBBBBBAhJBBBBBBAbcMDBBBCBDBFBGBHBBBBBCBEBCBDBBBCBDBHBACBBACBBACBBBBBBBBBBBBBBBBAePBBBBBB",
    "BBBBBBBBBBBBCBACBBAgBAdIBBBBBBBBBBBBBBBBBBBBBBBBBBBBBBBBBBBBBBBBAiCCBBBBBBBBBBBBBBBBBIBAkDEB",
    "AmDDBBBBBBBBBDnCAmOBmNAmNBmKBmLEmNCmPEnBAnDFnDCnFCnGKnKCnKEnKAeFAnJAnJAeHFnLnOBBBDBcBfECcoHP",
    "cGAcFAcFAcFBcAAcAAcAAcAAcAAcAAcAAcAAhEAcAAcAAdaHAcAAcAAcAAcAAcAAbPAcAAcAAcAAcAAcAAcAAcAAcAAc",
    "AAeAAdPAdPBdOAdJDcPAdGAIBBBBBBBBBBBBBBBBBBBBBBBBAfGAfABhEAfMAgACBAHBBBiCAiCAiCdAcAAcAAcAAcAA",
    "cAAcAAcAAcAAcAAcAAcAAcAAcAAcAAcAAcAAcAAcAAcAAcAAcAAcAAcAAcAAcAAcAAcAAcAAcAAcAAcAAcAAfAAfAAfA",
    "AfAAfAAfAAfAAfAAfAAfAAfAAfAAfAAfAAfAAfABBBBBBBBBBBBBBBBBBBBBBBBBBBBBBBBBBJBBBBBBBBBBBBBBBBBB",
    "BBBBBBBBBBBBBBBBBBBBBBBBBBBBBBBBBBBCBBBBBBBBBBBBBAPBBBBBBBBBBBBBBBBBBBBBBBBBBBBBBBBBBBBBBBBB",
    "BBBBBBBBBBBBBBBBBBBBBBBBBBBBBBBBBBBBBBBBBBBBBBBBBBBBBBBdBdAAdAAdAAdAAdAAdAAdAAdAAdAAdAAdAAdA",
    "AdAAdAAdAAdAAdAAdAAdAAdAAdAAdAAdAAdAAdAAdAAdAAdAAdAAdAAdAAdAAdAAdAAdAAdAAdAAdAohBIAIAIAIAIAI",
    "iiCbigOAbigNAbigEAbigCAbigCAbigDAbifMAbicFCBFlmAAlmAAlmAAlmAAlmAAlmAAlmAAlmAAlmAAlmAAlmAAlmA",
    "AlmAAlmAAlmAAlmAAlmAAlmAAlmAAlmAAlmAAlmAAlmAAlmAAlmAAlmAAlmAAlmAAlmAAlmAAlmAAlmAAlmAAlmAAlmA",
    "AlmAAlmAAlmAAlmAAlmAAlmAAlmAAlmAClmAAlmAAlmAbeBBBBBBBBBBBBBBBBBBBBBBBBBBBBBBBBBBBBBBBBBBBBBB",
    "BBBBBBBBBBBBBBBBBBBBBBBBBBBBBBBBBBBBBBBBBBBBBBBBBBBBBBBBBBBBBBBBBBBBBBBBBBBBBBBBBBBBBBBBBBBB",
    "BBBBBBBBBBBBFdLCbnlPCBBBBBBBBBBBBBBBBBBBBBBBBBBBBBBBBBBBBBBBBBBBBBBBBBBBBBBBBBBBBBBBBBBBBBBB",
    "BBBBBBBBBBBBBBBBBBBBBBBBIIAIAIAIAIAIAIAIIIAIAIAIAIAIKIAIAIAIAIAIAIAIIIAIAIAIAIAIAIAIIIAIAIAI",
    "AIAILIBIBIBIIIAIAIAIAIAIAIAIbIIAIAIAIAIAIAIAIIIAIAIAIAIAIAIAIIIAIAIAIAIAIAIAIIIAIAeKAeKAJBbm",
    "hJJfGAfGAfGAfGAJLIAIAgEAgEMIAIAhAAhAAHLiAAiAAhOAhOAJbcJbnhNDcanPAcagGcCbMcBbAAbAAbAAbAAbAAbA",
    "AbAAbAAbAAbAAbAAbAAbAAbAAbAAbAEBdeLbKAbKAbKAbKAbKAbKAbKAbKAbKAbKAbKAbKAbKAbKAbKAbKAbKAbKAbKA",
    "bKAbKAbKAbKAbKAbKAbKheGdAAdAAdAAdAAdAAdAAdAAdAAdAAdAAdAAdAAdAAdAAdAAdAAdAAdAAdAAdAAdAAdAAdAA",
    "dAAdAAdAAdAAdAAdAAdAAdAAdAAdAAdAAdAAdAAdAAdAAdAAdAAdAAdAAdAAdAAdAAdAAdAAdABBAcjpHAooGAcjoHAc",
    "kcLAckcIBBBBBBAckbMAcjpNAckbPAckbOCBCBHckdPAckdPBBBBBBBBBBBBBBBBBBBBBBBBBBBBBBBBBBBBBBBBBBBB",
    "BBBBBBBBBBBBBBBBBBBBBBBBBBBBBBBBBBBBBBBBBBBBBBBBBBBBBBBBIBBBEBMbmgAAbmgAAbmgAAbmgAAbmgAAbmgA",
    "AbmgAAbmgAAbmgAAbmgAAbmgAAbmgAAbmgAAbmgAAbmgAAbmgAAbmgAAbmgAAbmgAAbmgAAbmgAAbmgAAbmgAAbmgAAb",
    "mgAAbmgAAbmgAAbmgAAbmgAAbmgAAbmgAAbmgAAbmgAAbmgAAbmgAAbmgAAbmgAAbmgABbmgAFbmgAhjbDBBBBBBBBBA",
    "ijmCAijmDBBBBBBBBBBBBBBBBBBBBBBBBBBBBBBBBBBbDBBBBBBBBBBBBBBBBBBBBBBBBBBBiHBBBBBBBBBBBBBDBBBB",
    "BBBBBBBBBBBBBBBBBBBBBBBBBBBBBBBBBBBBBBBBBBBBBBBBBBBBBBBBBKBBBAikaEBBBBBBBBBBEBAkfcIDBBBDBBBB",
    "BBBBBBBBBBBBBBBAkfeEAkfePAkfeLAkfeBAkfeEBkfbCAkfcKAkfbFCBBBBBBBBBBBBBBBAdAAkfeDAikdIBBBBAkfg",
    "HBBBBBBBBBBBBBBBBAkgeBbJBdfMdkAbMjhnAAjhnAAjhnAAjhnAAjhnAAjhnAAjhnAAjhnAAjhnAAjhnAAjhnAAjhnA",
    "AjhnAAjhnAAjhnAAjhnAAjhnAAjhnAAjhnAAjhnAAjhnAAjhnAAjhnAAjhnAAjhnAAjhnAAjhnAAjhnAAjhnAAjhnAAj",
    "hnAAjhnAAjhnAAjhnAAjhnAAjhnAAjhnAAjhnAAjhnAAjhnAAjhnAAjhnAAjhnAAjhnAAjhnAAjhnAAjhnAAjhnAAjhn",
    "AAjhnAAjhnAAjhnAAjhnAAjhnAAjhnAAjhnAAjhnAAjhnAAjhnAAjhnAAjhnAAjhnAAjhnAAjhnAAjhnAAjhnAAjhnAA",
    "jhnAAjhnAAjhnAAjhnAAjhnAAjhnAAjhnAAjhnAAjhnAAjhnAAjhnAAjhnAAjhnAfdiBcAAcAAcAAcAAcAAcAAcAAcAA",
    "cAAcAAcAAcAAcAAcAAcAAcAAcAAcAAcAAcAAcAAcAAcAAcAAcAAcAemNcIAcIAcIAcIAcIAcIAcIAcIAcIAcIAcIAcIA",
    "cIAcIAcIAcIAcIAcIAcIAcIAcIAcIAcIAcIAcIAcIAcIAcIAcIAcIAcIAcIAcIAcIAcIAcIAcIAcIAcIAcIiIcIAcIAc",
    "IAcIAcIAcIAcIAcIAcIAcIAcIAcIAcIAcIAcIAcIAcIAcIAcIAcIAcIAcIAcIAcIAcIAcIAcIAcIAcIAcIAcIAcIAcIA",
    "cIAcIAcIjLcHAcHAcHAcHAcHAcHAcHAcHAcHAcHAcHBcHAcHAcHAcHAcHAcHAcHAcHAcHAcHAcHAcHAcHAcHAcHBcHAc",
    "HAcHAcHAcHAcHAcHBcHAcHhaDeAAeAAeAAeAAeAAeAAeAAeAAeAAeAAeAAeAAeAAeAAeAAeAAeAAeAAeAAeAAeAAeAAe",
    "AAeAAeAAeAAeAAeAAeAAeAAeAAeAAeAAeAAeAAeAAeAAeAAeAAeAAeAAeAAeAAeAAeAAeAAeAAeAAeAAeAAeAhNcAAcA",
    "AcAAcAAcAAcAAcAAcAAcAAcAAcAAcAAcAAcAAcAAcAAcAAcAAcAAcAAcAAcAldKcAAcAAcAAcAAcAAcAAcAAcAAcAAcA",
    "AcAAcAAcAAcAAcAAcAAcAAcAAcAAcAAcAAcAAcAAcAAcAAcAAcAAcAAcAAcAAcAAcAffiAcAAcAAcAAcAAcAAcAAcAAc",
    "AAcAAcAAcAAcAAcAAcAAcAAcAAcAAcAAcAAcAAcAAcAAcAAcAAcAAcAAcAAcAAcAAcAAcAAcAdLbLAbLAbLAbLAbLAbL",
    "AbLAbLAbLAbLAbLAbLAbLAbLAbLAbLAbLAbLAbLAbLAbLAbLAbLAbLAbLhkeOcCAcCAcCAcCAcCAcCAcCAcCAcCAcCAc",
    "CAcCAcCAcCAcCAcCAcCAcCAcCAcCAcCAcCAcCAcCAcCAcCAcCAcCAcCAcCAcCAcCAcCAcC"]))).toArray

/-- The least code point that differs from the given one only in case. -/
def fold (code : Nat) : Nat := image foldImages code

end FieldResolver.Unicode
