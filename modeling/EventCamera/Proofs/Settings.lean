import EventCamera.Proofs.Files.Writing
import EventCamera.Proofs.Json.Lawful
import EventCamera.Settings
/-!
# Saved settings are read back

Settings that some file holds are saved wherever a file can be written, and loaded again from there as they were
(`round_trip`). A record has its round trip from its fields (`LawfulStored`), and what is written to a file is read
there (`FileTree.Admits.write`).
-/

namespace EventCamera

open Stored

instance : LawfulStored Settings where
  native s := by
    refine .object _ ?_
    simp only [List.forall_mem_cons]
    exact ⟨native _, native _, native _, native _, native _, native _, native _, nofun⟩
  load?_store s := by
    have h : fields? ["window_duration_us", "max_queue_size", "output_root", "display_interval", "bias_steps",
        "synthetic", "stats_path"] (store s) =
        some [some (store s.windowMicros), some (store s.queueCapacity), some (store s.outputRoot),
          some (store s.displayInterval), some (store s.biasSteps), some (store s.synthetic),
          some (store s.statsPath)] :=
      fields?_object (by simp) [(_, _), (_, _), (_, _), (_, _), (_, _), (_, _), (_, _)] fun _ => id
    simp only [load?, h, optional_store]
    rfl

namespace Settings

variable {s : Settings}

theorem check_eq_ok_iff :
    s.check = .ok () ↔ 1 ≤ s.windowMicros.toInt ∧ s.windowMicros.toInt ≤ 3600000000 ∧ s.queueCapacity ≠ 0 ∧
      s.biasSteps ≠ [] := by
  have hlength : (s.windowMicros < 1 || WindowLength.hour < s.windowMicros) = true ↔
      s.windowMicros.toInt < 1 ∨ 3600000000 < s.windowMicros.toInt := by
    simp only [Bool.or_eq_true, decide_eq_true_eq, Int64.lt_iff_toInt_lt]
    rfl
  simp only [check, hlength, beq_iff_eq, List.isEmpty_iff]
  split_ifs with hmicros hqueue hsteps
  · exact ⟨nofun, fun h => by omega⟩
  · exact ⟨nofun, fun h => absurd hqueue h.2.2.1⟩
  · exact ⟨nofun, fun h => absurd hsteps h.2.2.2⟩
  · exact ⟨fun _ => ⟨by omega, by omega, hqueue, hsteps⟩, fun _ => rfl⟩

theorem ofText_eq_ok_iff {text : String} :
    ofText text = .ok s ↔ Stored.read? Settings text = some s ∧ s.check = .ok () := by
  unfold ofText
  split
  · next hread => simp [hread]
  · next read hread =>
    split
    · next e hcheck =>
      simp only [hread, Option.some.injEq]
      refine ⟨nofun, ?_⟩
      rintro ⟨rfl, h⟩
      rw [hcheck] at h
      cases h
    · next hcheck =>
      simp only [hread, Option.some.injEq, Except.ok.injEq]
      refine ⟨?_, And.left⟩
      rintro rfl
      exact ⟨rfl, hcheck⟩

theorem ofText_pretty (h : s.check = .ok ()) : ofText (pretty s) = .ok s :=
  ofText_eq_ok_iff.2 ⟨read?_pretty_of_lawful s, h⟩

theorem loadFrom_save (h : s.check = .ok ()) {tree : FileTree} {p : Path} (hp : tree.Admits p) :
    ∃ next, s.save p tree = (.ok (), next) ∧ loadFrom next p = .ok s := by
  obtain ⟨next, hwrite, hcontent⟩ := hp.write (Bytes.ofText (pretty s))
  refine ⟨next, ?_, ?_⟩
  · rw [save, hwrite]
  · rw [loadFrom, hcontent]
    dsimp only
    rw [Bytes.text?_ofText]
    exact ofText_pretty h

/-- Some file holds the settings. -/
def Loadable (s : Settings) : Prop := ∃ tree p, loadFrom tree p = .ok s

theorem check_of_loadFrom {tree : FileTree} {p : Path} (h : loadFrom tree p = .ok s) : s.check = .ok () := by
  unfold loadFrom at h
  split at h
  · cases h
  · split at h
    · cases h
    · exact (ofText_eq_ok_iff.1 h).2

theorem loadable_iff : Loadable s ↔ s.check = .ok () := by
  constructor
  · rintro ⟨tree, p, h⟩
    exact check_of_loadFrom h
  · intro h
    have hroom : FileTree.empty.Admits ⟨"/settings.json"⟩ := ⟨[], by decide⟩
    obtain ⟨next, -, hload⟩ := loadFrom_save h hroom
    exact ⟨next, _, hload⟩

/-- Settings that can be loaded from some file are all those within their limits. Wherever a file can be written, they
are saved and loaded again as they were, and no two of them have the same text. -/
theorem round_trip (s : Settings) :
    (Loadable s ↔ 1 ≤ s.windowMicros.toInt ∧ s.windowMicros.toInt ≤ 3600000000 ∧ s.queueCapacity ≠ 0 ∧
      s.biasSteps ≠ []) ∧
    (Loadable s → ∀ tree p, FileTree.Admits tree p →
      ∃ next, s.save p tree = (.ok (), next) ∧ loadFrom next p = .ok s) ∧
    (Loadable s → ∀ other, Loadable other → pretty other = pretty s → other = s) := by
  refine ⟨loadable_iff.trans check_eq_ok_iff, fun h tree p hp => loadFrom_save (loadable_iff.1 h) hp, ?_⟩
  intro h other hother htext
  have hread := ofText_pretty (loadable_iff.1 hother)
  rw [htext, ofText_pretty (loadable_iff.1 h)] at hread
  exact (Except.ok.inj hread).symm

theorem round_trip_standard :
    let s := { Settings.standard with outputRoot := ⟨"a\"b\\c\n"⟩, statsPath := some ⟨"\t"⟩ }
    Loadable s ∧ FileTree.empty.Admits ⟨"/settings.json"⟩ ∧
      ∃ next, s.save ⟨"/settings.json"⟩ FileTree.empty = (.ok (), next) ∧ loadFrom next ⟨"/settings.json"⟩ = .ok s := by
  intro s
  have hs : Loadable s := (round_trip s).1.2 ⟨by decide, by decide, by decide, by decide⟩
  have hp : FileTree.empty.Admits ⟨"/settings.json"⟩ := ⟨[], by decide⟩
  exact ⟨hs, hp, (round_trip s).2.1 hs _ _ hp⟩

end Settings

end EventCamera
