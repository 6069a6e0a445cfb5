import LayeredConfig.Proofs.Configuration.Run
import LayeredConfig.Proofs.Configuration.Validation

/-! Metrics from a stream to what is read. A stream is read to its end before anything is stored,
so one that breaks leaves the store alone; the stored text is the bytes in base 64, however they
came in pieces, and reads as the same bytes. No bytes at all are stored but are refused when
read. -/

namespace LayeredConfig

/-- Pieces that are not empty are all read, and their bounds leave no trace. -/
theorem ByteStream.drain_of_ne_nil {chunks : List (List UInt8)} (hc : ∀ c ∈ chunks, c ≠ [])
    (failure : Option Text) : drain chunks failure =
      failure.elim (.ok chunks.flatten) fun reason => .error (.brokenStream reason) := by
  induction chunks with
  | nil => cases failure <;> rfl
  | cons c chunks ih =>
    obtain ⟨hn, hcs⟩ := List.forall_mem_cons.mp hc
    have he : c.isEmpty = false := by simpa using hn
    rw [drain, he, if_neg Bool.false_ne_true, ih hcs]
    cases failure <;> rfl

theorem Base64.encode_eq_nil_iff {bs : List UInt8} : encode bs = [] ↔ bs = [] := by
  constructor
  · intro h
    have hd := decode_encode bs
    rw [h] at hd
    exact (Except.ok.inj hd).symm
  · rintro rfl
    rfl

namespace Store

variable {s : Store} {env : Environment}

def metricsKey : Text := Setting.metricsYamlBase64.key

theorem metrics_of_encode {bs : List UInt8}
    (hv : s.value metricsKey = .text (Base64.encode bs)) :
    s.metrics env = if bs = [] then .error (.broken .nonEmpty metricsKey (.text [])) else .ok bs := by
  have hr : s.raw metricsKey Setting.metricsYamlBase64.default? =
      .ok (.text (Base64.encode bs)) := by
    rw [raw_of_ne_null (by simp [hv]), hv]
  have hg : s.get env .metricsYamlBase64 = Kind.base64.check metricsKey (.text (Base64.encode bs)) :=
    get_eq_check (x := .metricsYamlBase64) hr rfl (Base64.isLiteral_encode bs) env
  rw [metrics, hg]
  by_cases hb : bs = []
  · rw [hb, if_pos rfl]
    rfl
  · have ha : Kind.base64.Admits (.text (Base64.encode bs)) :=
      ⟨_, rfl, fun he => hb (Base64.encode_eq_nil_iff.mp he)⟩
    rw [Kind.check_eq_ok_iff.mpr ⟨rfl, ha⟩, if_neg hb]
    exact Base64.decode_encode bs

/-- A stream that breaks is reported and changes nothing, whatever it gave before. From one that
ends all bytes are stored at once, and they are read back unless there are none. -/
theorem run_setMetrics (s : Store) {chunks : List (List UInt8)} (hc : ∀ c ∈ chunks, c ≠ []) :
    (∀ reason, (Change.setMetrics ⟨chunks, some reason⟩).run s = (s, .error (.brokenStream reason)) ∧
      (Fault.brokenStream reason).category? = some .inputOutput) ∧
    ∃ s', (Change.setMetrics ⟨chunks, none⟩).run s = (s', .ok ()) ∧
      s' = { s with written := s.written.insert metricsKey (.text (Base64.encode chunks.flatten)) } ∧
      ∀ env, (chunks.flatten ≠ [] → s'.metrics env = .ok chunks.flatten) ∧
        (chunks.flatten = [] → ∃ fault, s'.metrics env = .error fault ∧
          fault.category? = some .configuration) := by
  have hm (failure : Option Text) : s.setMetrics ⟨chunks, failure⟩ =
      failure.elim (.ok (s.put metricsKey (.text (Base64.encode chunks.flatten))))
        fun reason => .error (.brokenStream reason) := by
    rw [setMetrics, ByteStream.read, ByteStream.drain_of_ne_nil hc]
    cases failure <;> rfl
  constructor
  · intro reason
    rw [Change.run, hm]
    exact ⟨rfl, rfl⟩
  · refine ⟨s.put metricsKey (.text (Base64.encode chunks.flatten)), ?_, rfl, fun env => ?_⟩
    · rw [Change.run, hm]
      rfl
    · have hv := value_put s metricsKey (.text (Base64.encode chunks.flatten)) metricsKey
      rw [if_pos rfl] at hv
      rw [metrics_of_encode hv]
      refine ⟨fun hb => if_neg hb, fun hb => ?_⟩
      rw [if_pos hb]
      exact ⟨_, rfl, rfl⟩

/-- Three bytes in two pieces, over metrics that are held below. -/
theorem run_setMetrics_pieces :
    let s := (empty true).addLayer (.ofList [(metricsKey, .null)])
    (∀ c ∈ [[0x61], [0x0A, 0xFF]], c ≠ ([] : List UInt8)) ∧
      ∃ s', (Change.setMetrics ⟨[[0x61], [0x0A, 0xFF]], none⟩).run s = (s', .ok ()) ∧
        s'.metrics [] = .ok [0x61, 0x0A, 0xFF] := by
  intro s
  have hc : ∀ c ∈ [[0x61], [0x0A, 0xFF]], c ≠ ([] : List UInt8) := by simp
  obtain ⟨-, s', hr, -, hg⟩ := run_setMetrics s hc
  exact ⟨hc, s', hr, (hg []).1 (by simp)⟩

end Store

end LayeredConfig
