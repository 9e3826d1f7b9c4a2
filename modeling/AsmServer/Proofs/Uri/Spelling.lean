import AsmServer.Proofs.Uri.Relative

/-!
# Spellings of a path

A path can be spelled in a URI in many ways: each byte of its UTF-8 form stands for itself or
is escaped, with digits of either case, and only the percent sign has to be escaped. All
spellings of an absolute path behind the file scheme give the canonical URI of the path.

The canonical URI is a spelling as well, and whatever a text is taken for, a file or not,
taking its URI once more changes nothing.
-/

namespace AsmServer

namespace Percent

/-- The first bytes spell the second: each byte stands for itself, unless it is the percent sign,
or is escaped. -/
inductive Spells : List UInt8 → List UInt8 → Prop
  | nil : Spells [] []
  | plain {b : UInt8} {spelling bytes : List UInt8} (other : b ≠ 0x25)
      (rest : Spells spelling bytes) : Spells (b :: spelling) (b :: bytes)
  | escaped {b high low : UInt8} {spelling bytes : List UInt8}
      (first : high ∈ digitBytes (b.toNat / 16)) (second : low ∈ digitBytes (b.toNat % 16))
      (rest : Spells spelling bytes) : Spells (0x25 :: high :: low :: spelling) (b :: bytes)

variable {spelling bytes : List UInt8} {text path : Text}

/-- A spelling is read as what it spells. -/
theorem Spells.unescape (h : Spells spelling bytes) : unescape 0 spelling = bytes := by
  induction h with
  | nil => rfl
  | plain other rest ih => rw [unescape_cons other, ih]
  | escaped first second rest ih => rw [unescape_digits first second, ih]

/-- Bytes without a percent sign spell themselves, in front of any spelling. -/
theorem Spells.append (h : Spells spelling bytes) (lead : List UInt8) (plain : 0x25 ∉ lead) :
    Spells (lead ++ spelling) (lead ++ bytes) := by
  induction lead with
  | nil => exact h
  | cons b rest ih =>
    obtain ⟨here, later⟩ := List.ne_and_not_mem_of_not_mem_cons plain
    exact .plain here.symm (ih later)

theorem decode_of_spells (h : Spells (Utf8.encode text) (Utf8.encode path)) :
    decode text = path := by
  rw [decode, h.unescape, Utf8.decodeLenient_encode]

end Percent

namespace Uri

open AsmServer.Path

/-! ## Canonical once and for all -/

theorem modifyHead_ownPlace (path : Text) :
    (ownPlace path).modifyHead lowerName = ownPlace path := by
  rw [ownPlace, List.modifyHead_modifyHead]
  exact congrArg (List.modifyHead · _) (funext lowerName_lowerName)

theorem ownPlace_canonicalPath (path : Text) : ownPlace (canonicalPath path) = ownPlace path := by
  rw [canonicalPath_eq_rooted, ownPlace, slashed_rooted isName_ownPlace,
    place_rooted isName_ownPlace, modifyHead_ownPlace]

/-- A canonical path is its own canonical form. -/
theorem canonicalPath_canonicalPath (path : Text) :
    canonicalPath (canonicalPath path) = canonicalPath path := by
  rw [canonicalPath_eq_rooted, ownPlace_canonicalPath, ← canonicalPath_eq_rooted]

theorem isAbsolute_canonicalPath (path : Text) : isAbsolute (canonicalPath path) = true := by
  rw [canonicalPath_eq_rooted, rooted_eq_cons_join]
  rfl

/-- Behind the scheme an absolute path is the path of the file. -/
theorem filePath?_append {path : Text} (absolute : isAbsolute path = true) :
    filePath? (fileScheme ++ path) = some path := by
  obtain ⟨rest, rfl⟩ := List.head?_eq_some_iff.mp (of_decide_eq_true absolute)
  have host : Text.afterLead? "localhost".toList ('/' :: rest) = none := rfl
  rw [filePath?, Text.afterLead?_append]
  simp only [host, Option.getD_none]

/-- The URI of a text that is decoded to an absolute path behind the scheme. -/
theorem ofText_of_decode {text path : Text} (absolute : isAbsolute path = true)
    (read : Percent.decode text = fileScheme ++ path) : ofText text = ofPath path := by
  simp only [ofText, read, filePath?_append absolute]

theorem decode_ofPath (path : Text) :
    Percent.decode (ofPath path).text = fileScheme ++ canonicalPath path := by
  have scheme : Percent.encode fileScheme = fileScheme := by decide
  have whole : (ofPath path).text = Percent.encode (fileScheme ++ canonicalPath path) := by
    rw [Percent.encode, List.flatMap_append]
    exact congrArg (· ++ _) scheme.symm
  rw [whole, Percent.decode_encode]

/-- The canonical URI of a path stays. -/
theorem ofText_ofPath (path : Text) : ofText (ofPath path).text = ofPath path := by
  rw [ofText_of_decode (isAbsolute_canonicalPath path) (decode_ofPath path), ofPath,
    canonicalPath_canonicalPath, ofPath]

/-! ## The law -/

/-- Whatever URI a text is taken for, that URI is taken for itself; and every spelling of an
absolute path behind the file scheme is taken for the canonical URI of the path. -/
theorem ofText_normalizes :
    (∀ raw, ofText (ofText raw).text = ofText raw) ∧
      ∀ path spelling, isAbsolute path = true →
        Percent.Spells (Utf8.encode spelling) (Utf8.encode path) →
          ofText (fileScheme ++ spelling) = ofPath path := by
  constructor
  · intro raw
    cases file : filePath? (Percent.decode raw) with
    | some path =>
      have named : ofText raw = ofPath path := by simp only [ofText, file]
      rw [named, ofText_ofPath]
    | none =>
      have kept : ofText raw = ⟨Percent.encode (Percent.decode raw)⟩ := by simp only [ofText, file]
      rw [kept]
      simp only [ofText, Percent.decode_encode, file]
  · intro path spelling absolute spells
    refine ofText_of_decode absolute (Percent.decode_of_spells ?_)
    rw [Utf8.encode, Utf8.encode, List.flatMap_append, List.flatMap_append]
    exact spells.append _ (by decide)

/-- A capital drive letter and a letter of two bytes may be escaped, in either case. -/
theorem escaped_drive_normalizes :
    ofText (fileScheme ++ "/%44:/%c3%BC".toList) = ofPath "/D:/ü".toList := by
  refine ofText_normalizes.2 _ _ (by decide) ?_
  have drive {spelling bytes : List UInt8} (rest : Percent.Spells spelling bytes) :
      Percent.Spells (0x25 :: 0x34 :: 0x34 :: spelling) (0x44 :: bytes) :=
    .escaped (by decide) (by decide) rest
  have letter : Percent.Spells [0x25, 0x63, 0x33, 0x25, 0x42, 0x43] [0xC3, 0xBC] :=
    .escaped (by decide) (by decide) (.escaped (by decide) (by decide) .nil)
  exact .plain (by decide) (drive (letter.append [0x3A, 0x2F] (by decide)))

end Uri

end AsmServer
