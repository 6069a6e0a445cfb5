import LayeredConfig.Proofs.Store.Contents
import LayeredConfig.Proofs.Store.Expansion
import LayeredConfig.Proofs.Store.Reads

/-! What a text reads as depends on the names that its references lead to, and on nothing else.
Keys may refer to one another in any way. A write under a name that is not led to changes neither
the text nor the names that it leads to, so no later write under such a name is seen either. -/

namespace LayeredConfig

open Piece

namespace Store

variable {s s' : Store} {env env' : Environment} {t u name key : Text}

/-- A name that is asked for where the references of a text are followed, however deep. The text
of a variable is not looked into. -/
inductive Mentions (s : Store) : Text → Text → Prop where
  | here {t name : Text} (hr : .reference name ∈ ofText t) : Mentions s t name
  | there {t u via name : Text} (hr : .reference via ∈ ofText t) (hk : ¬ environmentMark <+: via)
      (hu : (s.value via).settingText? = some u) (h : Mentions s u name) : Mentions s t name

def MentionsKey (s : Store) (t key : Text) : Prop := s.Mentions t key ∧ ¬ environmentMark <+: key

/-- The system knows a variable by the bytes of its name. -/
def MentionsVariable (s : Store) (t : Text) (bytes : List UInt8) : Prop :=
  ∃ named, s.Mentions t (environmentMark ++ named) ∧ named.systemBytes = .ok bytes

/-- Names among which there are those of a text and those of every value that is reached. -/
theorem Mentions.mem {names : List Text} (h : s.Mentions t name)
    (ht : ∀ via, .reference via ∈ ofText t → via ∈ names)
    (hs : ∀ key ∈ names, ∀ u, (s.value key).settingText? = some u →
      ∀ via, .reference via ∈ ofText u → via ∈ names) : name ∈ names := by
  induction h with
  | here hr => exact ht _ hr
  | there hr _ hu _ ih => exact ih (hs _ (ht _ hr) _ hu)

theorem expand_eq_of_mentions {depth : Nat}
    (h : ∀ name, s.Mentions t name → SameFor s' s env' env name) :
    s'.expand env' depth t = s.expand env depth t := by
  induction depth generalizing t with
  | zero => rfl
  | succ depth ih =>
    refine expand_succ_congr fun name hp => resolve_congr (h name (.here hp)) fun hk u hu => ?_
    have hm : ¬ environmentMark <+: name := Text.dropPrefix?_eq_none_iff.mp hk
    exact ih fun name' hn => h name' (.there hp hm hu hn)

theorem Mentions.of_value_eq (h : s.Mentions t name)
    (hv : ∀ key, s.MentionsKey t key → s'.value key = s.value key) : s'.Mentions t name := by
  induction h with
  | here hr => exact .here hr
  | there hr hk hu _ ih =>
    have hw := hv _ ⟨.here hr, hk⟩
    exact .there hr hk (hw ▸ hu) (ih fun key hm => hv key ⟨.there hr hk hu hm.1, hm.2⟩)

/-- The names that are led to are found before a write as well as after it. -/
theorem mentions_congr (hv : ∀ key, s.MentionsKey t key → s'.value key = s.value key) :
    s'.Mentions t name ↔ s.Mentions t name := by
  refine ⟨fun h => ?_, fun h => h.of_value_eq hv⟩
  induction h with
  | here hr => exact .here hr
  | there hr hk hu _ ih =>
    have hw := hv _ ⟨.here hr, hk⟩
    rw [hw] at hu
    exact .there hr hk hu (ih fun key hm => hv key ⟨.there hr hk hu hm.1, hm.2⟩)

theorem sameFor_put (hk : ¬ s.MentionsKey t key) (v : Value) (hn : s.Mentions t name) :
    SameFor (s.put key v) s env env name := by
  unfold SameFor
  split
  · rfl
  · rename_i hd
    have hne : key ≠ name := by
      rintro rfl
      exact hk ⟨hn, Text.dropPrefix?_eq_none_iff.mp hd⟩
    rw [value_put, if_neg hne]

theorem interpolate_put (hk : ¬ s.MentionsKey t key) (v : Value) :
    (s.put key v).interpolate env t = s.interpolate env t :=
  expand_eq_of_mentions fun _ hn => sameFor_put hk v hn

theorem mentions_put (hk : ¬ s.MentionsKey t key) (v : Value) :
    (s.put key v).Mentions t name ↔ s.Mentions t name := by
  refine mentions_congr fun key' hm => ?_
  have hne : key ≠ key' := by
    rintro rfl
    exact hk hm
  rw [value_put, if_neg hne]

theorem interpolate_environment {bytes : List UInt8}
    (he : ∀ b, b ≠ bytes → env'.lookup b = env.lookup b) (hk : ¬ s.MentionsVariable t bytes) :
    s.interpolate env' t = s.interpolate env t := by
  refine expand_eq_of_mentions fun name hn => ?_
  unfold SameFor
  split
  · rename_i named hd
    have hm := Text.dropPrefix?_eq_some_iff.mp hd
    rw [Environment.get?, Environment.get?]
    cases hb : named.systemBytes with
    | error place => rfl
    | ok b =>
      have hne : b ≠ bytes := by
        rintro rfl
        exact hk ⟨named, hm ▸ hn, hb⟩
      simp only [he b hne]
  · rfl

theorem getText_put {k : Text} {d? : Option Value} (hne : key ≠ k)
    (hk : ∀ w u, s.raw k d? = .ok w → w.settingText? = some u → ¬ s.MentionsKey u key) (v : Value) :
    (s.put key v).getText env k d? = s.getText env k d? := by
  have hr : (s.put key v).raw k d? = s.raw k d? := by
    simp only [raw, value_put, if_neg hne, isStrict_put]
  rw [getText_eq, getText_eq]
  exact readWith_congr hr fun w _ hw => shownText_congr fun u hu => interpolate_put (hk w u hw hu) v

/-- A read sees what is held under the names that references lead to, and nothing else. -/
structure SeesOnlyMentioned (s : Store) (env : Environment) : Prop where
  put {t key : Text} (hk : ¬ s.MentionsKey t key) (v : Value) :
    (s.put key v).interpolate env t = s.interpolate env t ∧
      ∀ name, (s.put key v).Mentions t name ↔ s.Mentions t name
  erase {t key : Text} (hk : ¬ s.MentionsKey t key) :
    (s.erase key).interpolate env t = s.interpolate env t ∧
      ∀ name, (s.erase key).Mentions t name ↔ s.Mentions t name
  environment {t : Text} {bytes : List UInt8} {env' : Environment}
    (he : ∀ b, b ≠ bytes → env'.lookup b = env.lookup b) (hk : ¬ s.MentionsVariable t bytes) :
    s.interpolate env' t = s.interpolate env t
  getText {key k : Text} {v : Value} {d? : Option Value} (hne : key ≠ k)
    (h : (s.put key v).getText env k d? ≠ s.getText env k d?) :
    ∃ w u, s.raw k d? = .ok w ∧ w.settingText? = some u ∧ s.MentionsKey u key

theorem seesOnlyMentioned (s : Store) (env : Environment) : s.SeesOnlyMentioned env where
  put hk v := ⟨interpolate_put hk v, fun _ => mentions_put hk v⟩
  erase {t key} hk := by
    -- to remove a key is to write null under it
    have he : s.put key .null = s.erase key := rfl
    exact he ▸ ⟨interpolate_put hk .null, fun _ => mentions_put hk .null⟩
  environment he hk := interpolate_environment he hk
  getText {key k v d?} hne h := by
    by_contra hn
    exact h (getText_put hne (fun w u hw hu hk => hn ⟨w, u, hw, hu, hk⟩) v)

/-! Two keys that refer to each other, the first of them held twice, and three keys apart. -/

def tangled : Store where
  written := .ofList [("a", .text ((reference "b").written ++ (reference "env:HOME").written))]
  sources := [
    .ofList [("b", .text (reference "a").written), ("c", .text (reference "a").written)],
    .ofList [("a", .text "old"), ("d", .text (reference "e").written), ("e", .text "v")]]
  isStrict := true

theorem mem_of_mentions_tangled (h : tangled.Mentions (reference "a").written name) :
    name ∈ [("a" : Text), "b", "env:HOME"] := by
  have hr {via name : Text} (hn : IsName name)
      (hv : .reference via ∈ ofText (reference name).written) : via = name := by
    rw [ofText_reference hn, List.mem_singleton] at hv
    exact reference.inj hv
  refine h.mem (fun via hv => by simp [hr (by decide) hv]) ?_
  intro key hk u hu via hv
  simp only [List.mem_cons, List.not_mem_nil, or_false] at hk
  rcases hk with rfl | rfl | rfl
  · obtain rfl := Option.some.inj hu
    rw [ofText_written (by decide), List.mem_cons] at hv
    rcases hv with hv | hv
    · simp [reference.inj hv]
    · simp [hr (by decide) hv]
  · obtain rfl := Option.some.inj hu
    simp [hr (by decide) hv]
  · obtain rfl := Option.some.inj hu
    exact absurd hv (Text.isLiteral_of_not_mem (by decide) via)

theorem tangled_unseen :
    (tangled.put "c" (.int 5)).interpolate home (reference "a").written =
        tangled.interpolate home (reference "a").written ∧
      tangled.interpolate (([85, 83, 69, 82], "me") :: home) (reference "a").written =
        tangled.interpolate home (reference "a").written ∧
      (tangled.put "e" (.text "w")).getText home "d" none ≠ tangled.getText home "d" none ∧
      ∃ w u, tangled.raw "d" none = .ok w ∧ w.settingText? = some u ∧
        tangled.MentionsKey u "e" := by
  have hs := seesOnlyMentioned tangled home
  have hc : ¬ tangled.MentionsKey (reference "a").written "c" := fun hm =>
    absurd (mem_of_mentions_tangled hm.1) (by decide)
  have hu : ¬ tangled.MentionsVariable (reference "a").written [85, 83, 69, 82] := by
    rintro ⟨named, hm, hb⟩
    have hn := mem_of_mentions_tangled hm
    have hh : named = "HOME" := by simpa [environmentMark] using hn
    rw [hh] at hb
    exact absurd hb (by decide)
  have hl : ∀ b, b ≠ [85, 83, 69, 82] →
      List.lookup b ((([85, 83, 69, 82], "me") :: home : Environment)) = List.lookup b home := by
    intro b hb
    have he : (b == [85, 83, 69, 82]) = false := beq_eq_false_iff_ne.mpr hb
    rw [List.lookup_cons, he]
  have hd (s : Store) (u : Text) (hv : s.value "d" = .text (reference "e").written)
      (he : s.value "e" = .text u) (ht : u.IsLiteral) : s.getText home "d" none = .ok (some u) := by
    rw [getText_of_text hv, interpolate_reference (by decide) (by decide) he ht]
    rfl
  have hne : (tangled.put "e" (.text "w")).getText home "d" none ≠
      tangled.getText home "d" none := by
    rw [hd _ "w" rfl rfl (Text.isLiteral_of_not_mem (by decide)),
      hd _ "v" rfl rfl (Text.isLiteral_of_not_mem (by decide))]
    intro he
    exact absurd (Option.some.inj (Except.ok.inj he)) (by decide)
  exact ⟨(hs.put hc (.int 5)).1, hs.environment hl hu, hne, hs.getText (by decide) hne⟩

end Store

end LayeredConfig
