import MeteredLedger.Engine.Response
import MeteredLedger.Proofs.Value.Printing

/-!
# Responses on the wire

A response is written as one line of text, with the printed form of its value inside a JSON string.
The fields stand in a fixed order, and each of them shows where it ends, so data without names
arrive as they were sent.
-/

namespace MeteredLedger

open Text

variable {v w : Value}

/-- Values share the text of a response only if they print alike. -/
theorem ResponseBody.edn_eq_of_jsonMember_eq
    (h : (ResponseBody.value v).jsonMember = (ResponseBody.value w).jsonMember) :
    v.edn = w.edn := by
  have hchars : ("\"value\":" ++ jsonQuote v.edn).toList =
    ("\"value\":" ++ jsonQuote w.edn).toList := congrArg String.toList h
  rw [String.toList_append, String.toList_append] at hchars
  have hquote : (jsonQuote v.edn).toList ++ [] = (jsonQuote w.edn).toList ++ [] := by
    rw [List.append_cancel_left hchars]
  exact (jsonQuote_append_inj hquote).1

namespace Response

/-- The characters of a response with a value: a number, a text and another number, between what is
the same in all responses. -/
theorem toList_toJson_value (id : UInt64) (v : Value) (juiceUsed : Int64) :
    (Response.mk id (.value v) juiceUsed).toJson.toList =
      "\x7b\"id\":".toList ++ (intChars id.toNat ++ ',' :: ("\"value\":".toList ++
        ((jsonQuote v.edn).toList ++ (",\"juice_used\":".toList ++
          (intChars juiceUsed.toInt ++ ['\x7d']))))) := by
  change ("\x7b\"id\":" ++ ofInt id.toNat ++ "," ++ ("\"value\":" ++ jsonQuote v.edn) ++
    ",\"juice_used\":" ++ ofInt juiceUsed.toInt ++ "\x7d").toList = _
  simp only [String.toList_append, ofInt, String.toList_ofList, List.append_assoc]
  rfl

/-- A response with a value is determined by its text, up to how the value prints. -/
theorem toJson_value_inj {i j : UInt64} {m n : Int64}
    (h : (Response.mk i (.value v) m).toJson = (Response.mk j (.value w) n).toJson) :
    i = j ∧ v.edn = w.edn ∧ m = n := by
  have hchars := congrArg String.toList h
  rw [toList_toJson_value, toList_toJson_value] at hchars
  obtain ⟨hid, hrest⟩ := intChars_append_inj (delimited_cons rfl) (delimited_cons rfl)
    (List.append_cancel_left hchars)
  obtain ⟨hvalue, hrest⟩ := jsonQuote_append_inj (List.append_cancel_left (List.cons.inj hrest).2)
  obtain ⟨hjuice, -⟩ := intChars_append_inj (delimited_cons rfl) (delimited_cons rfl)
    (List.append_cancel_left hrest)
  exact ⟨UInt64.toNat_inj.mp (Int.ofNat_inj.mp hid), hvalue, Int64.toInt_inj.mp hjuice⟩

end Response

/-- Data without names are equal if they print alike, if they are the same value of a response, and
if responses that carry them have the same text. -/
theorem nameless_told_apart {v w : Value} (hv : v.Nameless) (hw : w.Nameless) :
    (v.edn = w.edn ↔ v = w) ∧
    ((ResponseBody.value v).jsonMember = (ResponseBody.value w).jsonMember ↔ v = w) ∧
    ∀ q r : Response, q.value? = some v → r.value? = some w → (q.toJson = r.toJson ↔ q = r) := by
  refine ⟨⟨hv.eq_of_edn_eq hw, ?_⟩, ⟨fun h ↦ ?_, ?_⟩, fun q r hq hr ↦ ⟨fun h ↦ ?_, ?_⟩⟩
  · rintro rfl
    rfl
  · exact hv.eq_of_edn_eq hw (ResponseBody.edn_eq_of_jsonMember_eq h)
  · rintro rfl
    rfl
  · obtain ⟨i, body, m⟩ := q
    obtain ⟨j, body', n⟩ := r
    cases body with
    | error => cases hq
    | value =>
        cases body' with
        | error => cases hr
        | value =>
            obtain rfl := Option.some.inj hq
            obtain rfl := Option.some.inj hr
            obtain ⟨rfl, hedn, rfl⟩ := Response.toJson_value_inj h
            rw [hv.eq_of_edn_eq hw hedn]
  · rintro rfl
    rfl

/-- A string that looks like two, before a set. -/
theorem nameless_told_apart_quotes :
    let v : Value := .vector [.string "1\" \"2", .set ⟨[.address ⟨1⟩]⟩]
    let w : Value := .vector [.string "1", .string "2", .set ⟨[.address ⟨1⟩]⟩]
    v.edn ≠ w.edn ∧ (ResponseBody.value v).jsonMember ≠ (ResponseBody.value w).jsonMember ∧
      (Response.mk 1 (.value v) 0).toJson ≠ (Response.mk 1 (.value w) 0).toJson := by
  intro v w
  have hset : (Value.set ⟨[.address ⟨1⟩]⟩).Nameless :=
    .set (List.forall_mem_singleton.mpr (.address ⟨1⟩))
  have hv : v.Nameless := .vector (List.forall_mem_cons.mpr
    ⟨.string _, List.forall_mem_singleton.mpr hset⟩)
  have hw : w.Nameless := .vector (List.forall_mem_cons.mpr
    ⟨.string _, List.forall_mem_cons.mpr ⟨.string _, List.forall_mem_singleton.mpr hset⟩⟩)
  have hne : v ≠ w := fun h ↦ absurd (congrArg List.length (Value.vector.inj h)) (by decide)
  obtain ⟨hedn, hmember, hjson⟩ := nameless_told_apart hv hw
  refine ⟨fun h ↦ hne (hedn.mp h), fun h ↦ hne (hmember.mp h), fun h ↦ hne ?_⟩
  have hresponse := (hjson (Response.mk 1 (.value v) 0) (Response.mk 1 (.value w) 0) rfl rfl).mp h
  exact ResponseBody.value.inj (congrArg Response.body hresponse)

end MeteredLedger
