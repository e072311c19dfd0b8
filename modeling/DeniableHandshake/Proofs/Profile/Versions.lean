import DeniableHandshake.Profile.Basic
import Mathlib.Data.List.Basic
import Mathlib.Data.Set.List

/-!
# Versions as characters and as bytes

Versions travel as UTF-8, and text is determined by its bytes. A text is made of certain ASCII characters
exactly if its bytes are those of the characters, so the test of the characters of a received profile is
one of the bytes on the wire.
-/
namespace DeniableHandshake

theorem utf8_injective {s t : String} (h : utf8 s = utf8 t) : s = t := by
  have hof := congrArg ofUtf8? h
  rw [ofUtf8?_utf8, ofUtf8?_utf8] at hof
  exact Option.some.inj hof

theorem utf8_ofList (cs : List Char) : utf8 (.ofList cs) = cs.flatMap String.utf8EncodeChar := by
  simp [utf8, String.toByteArray_ofList, List.utf8Encode]

section Ascii

variable {accepted : List Char} (hascii : ∀ c ∈ accepted, String.utf8EncodeChar c = [c.toUInt8])

include hascii

theorem utf8_ofList_of_ascii {cs : List Char} (hcs : ∀ c ∈ cs, c ∈ accepted) :
    utf8 (.ofList cs) = cs.map Char.toUInt8 := by
  rw [utf8_ofList, List.map_eq_flatMap]
  exact List.flatMap_congr fun c hc => hascii c (hcs c hc)

/-- No part of the encoding of another character can be mistaken for an accepted one. -/
theorem forall_mem_toList_iff {s : String} :
    (∀ c ∈ s.toList, c ∈ accepted) ↔ ∀ b ∈ utf8 s, b ∈ accepted.map Char.toUInt8 := by
  constructor
  · intro h b hb
    rw [← String.ofList_toList (s := s), utf8_ofList_of_ascii hascii h] at hb
    obtain ⟨c, hc, rfl⟩ := List.mem_map.mp hb
    exact List.mem_map_of_mem (h c hc)
  · intro h
    -- the text that has these bytes because it is made of accepted characters
    have hrange : utf8 s ∈ Set.range (List.map fun c : { c // c ∈ accepted } => c.val.toUInt8) := by
      rw [Set.range_list_map]
      intro b hb
      obtain ⟨c, hc, rfl⟩ := List.mem_map.mp (h b hb)
      exact ⟨⟨c, hc⟩, rfl⟩
    obtain ⟨cs, hcs⟩ := hrange
    have hmem : ∀ c ∈ cs.map Subtype.val, c ∈ accepted := by
      intro c hc
      obtain ⟨c', -, rfl⟩ := List.mem_map.mp hc
      exact c'.property
    have hbytes := utf8_ofList_of_ascii hascii hmem
    rw [List.map_map] at hbytes
    rwa [← utf8_injective (hbytes.trans hcs), String.toList_ofList]

end Ascii

namespace Profile

theorem versionsAccepted_iff {p : Profile} :
    p.versionsAccepted = true ↔ ∀ b ∈ utf8 p.versions, b = '3'.toUInt8 ∨ b = '4'.toUInt8 := by
  have hascii : ∀ c ∈ acceptedVersions, String.utf8EncodeChar c = [c.toUInt8] := by
    simp only [acceptedVersions, List.forall_mem_cons]
    exact ⟨rfl, rfl, nofun⟩
  have hchars := forall_mem_toList_iff hascii (s := p.versions)
  simp only [acceptedVersions, List.map_cons, List.map_nil, List.mem_cons, List.not_mem_nil,
    or_false] at hchars
  rw [← hchars, versionsAccepted, List.all_eq_true]
  simp [acceptedVersions]

end Profile

end DeniableHandshake
