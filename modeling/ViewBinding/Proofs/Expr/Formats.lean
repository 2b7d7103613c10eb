import ViewBinding.Proofs.Expr.Written

/-!
# Expr.Formats — the two written forms compared

MessagePack keeps every bit of an expression, NaN and infinities included, as long as lengths fit
32 bits; and where JSON has a form for each number, both forms stand for the same expression
(`formats_agree`).

Both conditions are needed (`formats_differ`).  The digits that JSON writes for a number may be read
as its neighbour, and a length loses what does not fit its header.
-/

namespace ViewBinding

namespace MessagePack

/-- A text that is so long that its header announces none of it is read as empty. -/
theorem readValue_encodeText_overlong (limit : Nat) {s : String}
    (long : s.utf8ByteSize % 2 ^ 32 = 0) (rest : List UInt8) :
    ∃ left, readValue limit (encodeText s ++ rest) = some (.text "", left) := by
  have size : s.toUTF8.data.toList.length % 2 ^ 32 = 0 := by simpa using long
  have empty : textContent [] = .text "" := textContent_toUTF8 ""
  refine ⟨s.toUTF8.data.toList ++ rest, ?_⟩
  rw [encodeText, List.append_assoc, readValue_textHeader, size]
  simp [text?, take?, empty]

end MessagePack

namespace Expr

/-- **MessagePack keeps every expression**, whatever follows its bytes, and JSON keeps the same ones
as long as their numbers have a form in it. -/
theorem formats_agree {e : Expr} (short : e.Short)
    (nesting : e.toContent.nesting ≤ MessagePack.nestingLimit) :
    (∀ rest, ofMessagePack? (e.toMessagePack ++ rest) = some e) ∧
    (e.toContent.nesting ≤ Json.nestingLimit → (∀ bits, e.Mentions bits → HasJson bits) →
      ofJson? e.toJson = ofMessagePack? e.toMessagePack) := by
  have kept := ofMessagePack?_append short nesting
  refine ⟨kept, fun nesting' numbers => ?_⟩
  rw [ofJson?_toJson nesting' numbers, ← kept [], List.append_nil]

/-- `['ü"', f(x)]` -/
def listing (x : Float) : Expr := array [string "ü\"", callName "f" [number x]]

theorem short_listing (x : Float) : (listing x).Short := by
  have call : (callName "f" [number x]).Short :=
    short_callName (by decide) (by simp) (List.forall_mem_singleton.mpr (short_primitive _))
  exact short_array (by simp)
    (List.forall_mem_cons.mpr ⟨short_string (by decide), List.forall_mem_singleton.mpr call⟩)

theorem mentions_listing {x : Float} {bits : UInt64} :
    (listing x).Mentions bits ↔ bits = x.toBits := by
  simp [listing, mentions_array, mentions_callName, not_mentions_string, number,
    mentions_primitive, eq_comm]

/-- NaN survives in MessagePack, and one half survives in both forms. -/
theorem formats_agree_listing :
    (∀ rest, ofMessagePack? ((listing (0.0 / 0.0)).toMessagePack ++ rest) =
      some (listing (0.0 / 0.0))) ∧
    ofJson? (listing 0.5).toJson = ofMessagePack? (listing 0.5).toMessagePack := by
  have nesting (x : Float) : (listing x).toContent.nesting = 6 := rfl
  have half (bits : UInt64) (m : (listing 0.5).Mentions bits) : HasJson bits := by
    rw [mentions_listing.mp m]
    exact ⟨by decide +kernel, by decide +kernel⟩
  exact ⟨(formats_agree (short_listing _) (by rw [nesting]; decide)).1,
    (formats_agree (short_listing _) (by rw [nesting]; decide)).2 (by rw [nesting]; decide) half⟩

/-- A text of `2 ^ 32` bytes is lost. -/
theorem ofMessagePack?_overlong {s : String} (long : s.utf8ByteSize % 2 ^ 32 = 0) :
    ofMessagePack? (string s).toMessagePack = some (string "") := by
  have decoded : MessagePack.decode? (string s).toMessagePack = some (string "").toContent := by
    obtain ⟨left, last⟩ := MessagePack.readValue_encodeText_overlong 1022 long []
    have name (t : String) (short : t.utf8ByteSize < 2 ^ 32) (rest : List UInt8) :=
      MessagePack.readValue_encodeText 1022 short rest
    have two : 2 % 2 ^ 32 = 2 := Nat.mod_eq_of_lt (by decide)
    show (MessagePack.readValue (1022 + 1) (MessagePack.mappingHeader 2 ++
      (MessagePack.encodeText "type" ++ MessagePack.encodeText "LiteralString" ++
        (MessagePack.encodeText "value" ++ MessagePack.encodeText s ++ [])))).map (·.1) = _
    simp only [MessagePack.readValue_mappingHeader, MessagePack.readMapping, two, List.append_assoc,
      MessagePack.readMany, MessagePack.readEntry, name "type" (by decide),
      name "LiteralString" (by decide), name "value" (by decide), last,
      Option.bind_eq_bind, Option.bind_some]
    rfl
  rw [ofMessagePack?, decoded, Option.bind_eq_bind, Option.bind_some,
    ofContent?_toContent Kind.ofAny?_label]

theorem utf8ByteSize_replicate (n : Nat) :
    (String.ofList (List.replicate n 'a')).utf8ByteSize = n := by
  induction n with
  | zero => rfl
  | succ n ih =>
    have letter : 'a'.utf8Size = 1 := rfl
    rw [List.replicate_succ, String.ofList_cons, String.utf8ByteSize_append, ih,
      String.utf8ByteSize_singleton, letter, Nat.add_comm]

/-- **The conditions are needed.**  A number whose digits are read as its neighbour differs in the two
forms, and a text of `2 ^ 32` bytes is lost. -/
theorem formats_differ :
    (∃ near, ofJson? (number 97.30914801778461).toJson = some near ∧
      ofMessagePack? (number 97.30914801778461).toMessagePack =
        some (number 97.30914801778461) ∧
      near.same (number 97.30914801778461) = false) ∧
    ∃ s, ofMessagePack? (string s).toMessagePack = some (string "") ∧ s ≠ "" := by
  refine ⟨?_, String.ofList (List.replicate (2 ^ 32) 'a'), ?_, ?_⟩
  · have differ : (ofJson? (number 97.30914801778461).toJson).map
        (·.same (number 97.30914801778461)) = some false := by decide +kernel
    obtain ⟨near, read, eq⟩ := Option.map_eq_some_iff.mp differ
    have written := (number 97.30914801778461).ofMessagePack?_append (short_primitive _) (by decide) []
    rw [List.append_nil] at written
    exact ⟨near, read, written, eq⟩
  · refine ofMessagePack?_overlong ?_
    rw [utf8ByteSize_replicate, Nat.mod_self]
  · intro empty
    have size := utf8ByteSize_replicate (2 ^ 32)
    rw [empty] at size
    cases size

end Expr

end ViewBinding
