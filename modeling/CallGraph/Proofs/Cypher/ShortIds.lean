import CallGraph.Cypher.Literal

/-!
# Ids cut short

An id is cut at a byte, but what is meant are characters, which take one to four bytes each.  The
byte is the number of those that the characters before it take, so it is where the next one begins.

* `exists_append_of_shortEnd?` — an id that is cut goes on behind its leading characters;
* `upTo?_shortEnd` — the cut does not lie inside a character, and the leading characters are left;
* `shortId_eq_iff` — ids that are cut to the same;
* `shortId_leading` — cutting at the byte is cutting behind the characters.
-/

namespace CallGraph.Cypher

theorem ofList_shortId (id : String) :
    shortId id = String.ofList (id.toList.take shortLength) := by
  rw [← toList_shortId, String.ofList_toList]

/-- An id that is cut goes on behind its leading characters. -/
theorem exists_append_of_shortEnd? {id : String} {stop : Nat} (h : stop ∈ shortEnd? id) :
    ∃ rest : String, id = shortId id ++ rest ∧ 0 < rest.utf8ByteSize
      ∧ stop = (shortId id).utf8ByteSize := by
  rw [Option.mem_def, shortEnd?_eq] at h
  split at h
  · rename_i hlength
    refine ⟨String.ofList (id.toList.drop shortLength), ?_, ?_, ?_⟩
    · rw [ofList_shortId, take_append_drop_id]
    · obtain ⟨c, more, hdrop⟩ := exists_drop_eq_cons hlength
      have hsize := c.utf8Size_pos
      rw [hdrop, String.ofList_cons, String.utf8ByteSize_append, String.utf8ByteSize_singleton]
      omega
    · rw [ofList_shortId]
      exact (Option.some.inj h).symm
  · cases h

/-- The cut lies inside the id and not inside a character, and the slice up to it can be taken. -/
theorem upTo?_shortEnd {id : String} {stop : Nat} (h : stop ∈ shortEnd? id) :
    (String.Pos.Raw.mk stop).IsValid id ∧ stop < id.utf8ByteSize
      ∧ Text.upTo? id ⟨stop⟩ = some (shortId id) := by
  obtain ⟨rest, hid, hrest, rfl⟩ := exists_append_of_shortEnd? h
  refine ⟨?_, ?_, ?_⟩
  · exact String.Pos.Raw.isValid_iff_exists_append.mpr ⟨shortId id, rest, hid, rfl⟩
  · have hsize := congrArg String.utf8ByteSize hid
    rw [String.utf8ByteSize_append] at hsize
    show (shortId id).utf8ByteSize < id.utf8ByteSize
    omega
  · exact Text.upTo?_eq_some_iff.mpr ⟨rest, hid, rfl⟩

theorem shortId_eq_iff (id other : String) :
    shortId id = shortId other ↔ id.toList.take shortLength = other.toList.take shortLength := by
  rw [← String.toList_inj, toList_shortId, toList_shortId]

/-- **Cutting an id at a byte is cutting it behind characters.**  An id of more than eight characters
is cut behind the bytes of the first eight.  That byte lies inside the id and begins a character, so
the slice can be taken; and what is left of any id are its first eight characters, or all of them.
Cutting again changes nothing, and two ids are cut to the same exactly if they begin in the same. -/
theorem shortId_leading (id : String) :
    (shortEnd? id = if 8 < id.toList.length then some (Text.byteCount (id.toList.take 8)) else none)
    ∧ (∀ stop ∈ shortEnd? id, (String.Pos.Raw.mk stop).IsValid id ∧ stop < id.utf8ByteSize
        ∧ Text.upTo? id ⟨stop⟩ = some (shortId id))
    ∧ cutId? id = some (shortId id)
    ∧ (shortId id).toList = id.toList.take (min 8 id.toList.length)
    ∧ shortId (shortId id) = shortId id
    ∧ ∀ other, shortId id = shortId other ↔ id.toList.take 8 = other.toList.take 8 := by
  refine ⟨?_, fun stop => upTo?_shortEnd, ?_, ?_, ?_, fun other => shortId_eq_iff id other⟩
  · rw [Text.byteCount_eq]
    exact shortEnd?_eq id
  · rw [ofList_shortId]
    exact cutId?_eq id
  · rw [toList_shortId, shortLength]
    exact List.take_eq_take_min
  · rw [shortId_eq_iff, toList_shortId, List.take_take, Nat.min_self]

/-- Eight characters of one to four bytes take twenty bytes. -/
theorem shortId_leading_mixed :
    20 ∈ shortEnd? "aé漢😀aé漢😀!?"
    ∧ (String.Pos.Raw.mk 20).IsValid "aé漢😀aé漢😀!?"
    ∧ shortId "aé漢😀aé漢😀!?" = "aé漢😀aé漢😀" := by
  obtain ⟨hend, hvalid, -, hchars, -, -⟩ := shortId_leading "aé漢😀aé漢😀!?"
  have hmem : 20 ∈ shortEnd? "aé漢😀aé漢😀!?" := hend.trans rfl
  exact ⟨hmem, (hvalid 20 hmem).1, String.toList_inj.mp (hchars.trans rfl)⟩

end CallGraph.Cypher
