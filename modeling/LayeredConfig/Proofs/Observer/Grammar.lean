import LayeredConfig.Proofs.Observer.Form

/-! The grammar of an observer's text. A text is read exactly if it has the form
`className(,key=value)*` between blanks, and what is read is what stands there. Every other text is
refused, for the first thing in it that is out of form. -/

namespace LayeredConfig.Observer

variable {key t : Text}

/-- A refusal begins with the key of the property. -/
theorem Refusal.prefix_message {fault : Fault} (h : Refusal key t fault) :
    key <+: fault.message := by
  cases h with
  | empty => exact List.prefix_append ..
  | unnamed => exact (List.prefix_append ..).trans (List.prefix_append ..)
  | field _ _ _ _ _ he =>
    rw [he]
    split
    · exact (List.prefix_append ..).trans (List.prefix_append ..)
    · exact (List.prefix_append ..).trans (List.prefix_append ..)

/-- The form of a text decides whether it is read. It holds the class name and the parameters in
their order, where a repeated key has its first place and its last value. Any other text is refused,
with the property named first. -/
theorem decode_iff_isWritten (key t : Text) :
    ((∃ o, decode key t = .ok o) ↔ ∃ name es, IsWritten t name es) ∧
      (∀ name es, IsWritten t name es → ∃ o, decode key t = .ok o ∧ o.className = name ∧
        o.parameters.keys = (es.map Prod.fst).eraseDups ∧
        ∀ k, o.parameters.get? k = OrderedMap.find? k es.reverse) ∧
      ((¬ ∃ name es, IsWritten t name es) → ∃ fault, decode key t = .error fault ∧
        Refusal key t fault ∧ fault.category? = some .configuration ∧ key <+: fault.message) := by
  refine ⟨⟨?_, ?_⟩, ?_, ?_⟩
  · rintro ⟨o, ho⟩
    obtain ⟨es, hw, -⟩ := exists_isWritten_of_decode ho
    exact ⟨o.className, es, hw⟩
  · rintro ⟨name, es, hw⟩
    exact ⟨_, hw.decode_eq key⟩
  · intro name es hw
    exact ⟨_, hw.decode_eq key, rfl, OrderedMap.keys_ofList es, OrderedMap.get?_ofList es⟩
  · intro hn
    obtain ⟨fault, hf, hr⟩ := (decode_cases key t).resolve_right hn
    exact ⟨fault, hf, hr, hr.category?, hr.prefix_message⟩

/-- A repeated parameter, with blanks at the ends and before a comma. -/
def repeated : Text := " A,k=1,j=x ,k=2 "

def malformed : Text := "A,k=v,k=,j"

theorem isWritten_repeated : IsWritten repeated "A" [("k", "1"), ("j", "x "), ("k", "2")] :=
  ⟨by decide, by decide, by decide⟩

theorem decode_repeated_malformed :
    (∃ o, decode "p" repeated = .ok o ∧ o.className = "A" ∧
      o.parameters.keys = [("k" : Text), "j"] ∧ o.parameters.get? "k" = some "2" ∧
      o.parameters.get? "j" = some "x ") ∧
    ∃ fault, decode "p" malformed = .error fault ∧ Refusal "p" malformed fault ∧
      fault.category? = some .configuration ∧ "p" <+: fault.message := by
  constructor
  · obtain ⟨o, ho, hn, hk, hg⟩ := (decode_iff_isWritten "p" repeated).2.1 _ _ isWritten_repeated
    exact ⟨o, ho, hn, hk, hg "k", hg "j"⟩
  · obtain ⟨hiff, -, hrefuse⟩ := decode_iff_isWritten "p" malformed
    refine hrefuse fun hw => ?_
    obtain ⟨o, ho⟩ := hiff.mpr hw
    exact nomatch ho

end LayeredConfig.Observer
