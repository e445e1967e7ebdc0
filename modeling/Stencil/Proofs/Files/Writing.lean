import Stencil.Files.Basic

/-!
# Writing a file

A file that may be written at a path has a folder around it. Writing it changes what is at its place and
nothing else (`at?_set_of_writable`), and the path still leads there: what is read at the path is what was
written (`read_set_of_writable`).
-/

namespace Stencil.Files

section

variable {fs : Files} {p q : Place} {path : Path} {bytes : Bytes}

/-- An entry that was written is at its place. -/
theorem at?_set_self (fs : Files) (p : Place) (e : Entry) : (fs.set p e).at? p = some e := by
  have hfind : (fs.set p e).entries.find? (fun x => x.1 = p) = some (p, e) := by
    rw [set, List.find?_cons_of_pos]
    exact decide_eq_true rfl
  rw [at?, hfind]

/-- Whether a place is on the way to something, or to the folder in which relative paths start. -/
def leads (fs : Files) (q : Place) : Bool :=
  q.isPrefixOf fs.here || fs.entries.any fun x => q.isPrefixOf x.1

/-- A place is on the way to something that is listed or to the folder in which relative paths start. -/
theorem leads_iff : fs.leads q ↔ q <+: fs.here ∨ ∃ x ∈ fs.entries, q <+: x.1 := by
  rw [leads, Bool.or_eq_true, List.any_eq_true, List.isPrefixOf_iff_prefix]
  simp only [List.isPrefixOf_iff_prefix]

/-- What is at a place that is not listed is a folder if it is on the way to something. -/
theorem at?_of_not_listed (h : fs.entries.find? (fun x => x.1 = q) = none) :
    fs.at? q = if fs.leads q then some .folder else none := by
  rw [at?, h]
  rfl

/-- A file is listed. -/
theorem exists_of_at?_file (h : fs.at? p = some (.file bytes)) : ∃ x ∈ fs.entries, x.1 = p := by
  rw [at?] at h
  split at h
  · next x hfind => exact ⟨x, List.mem_of_find?_eq_some hfind, by simpa using List.find?_some hfind⟩
  · split at h <;> cases h

/-- A folder is on the way to something, or is listed itself. -/
theorem leads_of_at?_folder (h : fs.at? p = some .folder) : fs.leads p := by
  cases hfind : fs.entries.find? (fun x => x.1 = p) with
  | none =>
      rw [at?_of_not_listed hfind] at h
      split at h
      · assumption
      · cases h
  | some x =>
      have hx : x.1 = p := by simpa using List.find?_some hfind
      exact leads_iff.2 (.inr ⟨x, List.mem_of_find?_eq_some hfind, hx ▸ List.prefix_rfl⟩)

/-- A place at which a file may be written: there is a file, or nothing in a folder. -/
def Open (fs : Files) (p : Place) : Prop :=
  (∃ bytes, fs.at? p = some (.file bytes)) ∨ fs.at? p = none ∧ fs.at? p.dropLast = some .folder

/-- The place of a file that may be written at a path. -/
theorem open_of_writable (h : fs.writable path = .ok p) : fs.place path = .ok p ∧ fs.Open p := by
  rw [writable] at h
  cases hplace : fs.place path with
  | error fault => rw [hplace] at h; cases h
  | ok p' =>
      rw [hplace] at h
      dsimp only [bind, Except.bind] at h
      split at h
      · cases h
      · next bytes hat =>
          cases h
          exact ⟨rfl, .inl ⟨bytes, hat⟩⟩
      · next hat =>
          split at h
          · next hfolder =>
              cases h
              exact ⟨rfl, .inr ⟨hat, hfolder⟩⟩
          · cases h
          · cases h

/-- No folder is where a file may be written. -/
theorem Open.ne_folder (h : fs.Open p) : fs.at? p ≠ some .folder := by
  rcases h with ⟨bytes, h⟩ | ⟨h, -⟩ <;> rw [h] <;> exact nofun

/-- The way to a place at which a file may be written is the way to something. -/
theorem Open.leads_above (h : fs.Open p) (hq : q <+: p) (hne : q ≠ p) : fs.leads q := by
  rcases h with ⟨bytes, hfile⟩ | ⟨-, hfolder⟩
  · obtain ⟨x, hx, rfl⟩ := exists_of_at?_file hfile
    exact leads_iff.2 (.inr ⟨x, hx, hq⟩)
  · have habove : q <+: p.dropLast := by
      rcases List.eq_nil_or_concat p with rfl | ⟨p, n, rfl⟩
      · exact hq
      · rw [List.concat_eq_append] at hq hne ⊢
        rw [List.dropLast_concat]
        exact (List.prefix_concat_iff.1 hq).resolve_left hne
    rcases leads_iff.1 (leads_of_at?_folder hfolder) with hhere | ⟨x, hx, hprefix⟩
    · exact leads_iff.2 (.inl (habove.trans hhere))
    · exact leads_iff.2 (.inr ⟨x, hx, habove.trans hprefix⟩)

/-- Writing a file makes no other place one on the way to something. -/
theorem leads_set_of_open (h : fs.Open p) (e : Entry) (hne : q ≠ p) :
    (fs.set p e).leads q = fs.leads q := by
  rw [Bool.eq_iff_iff]
  constructor
  · intro hleads
    rcases leads_iff.1 hleads with hhere | ⟨x, hx, hprefix⟩
    · exact leads_iff.2 (.inl hhere)
    · rcases List.mem_cons.1 hx with rfl | hx
      · exact h.leads_above hprefix hne
      · exact leads_iff.2 (.inr ⟨x, (List.mem_filter.1 hx).1, hprefix⟩)
  · intro hleads
    rcases leads_iff.1 hleads with hhere | ⟨x, hx, hprefix⟩
    · exact leads_iff.2 (.inl hhere)
    · by_cases hxp : x.1 = p
      · exact leads_iff.2 (.inr ⟨(p, e), List.mem_cons_self, hxp ▸ hprefix⟩)
      · have hkept : x ∈ (fs.set p e).entries :=
          List.mem_cons_of_mem _ (List.mem_filter.2 ⟨hx, by simpa using hxp⟩)
        exact leads_iff.2 (.inr ⟨x, hkept, hprefix⟩)

/-- Writing a file leaves what is at other places as it is. -/
theorem at?_set_of_open (h : fs.Open p) (e : Entry) (hne : q ≠ p) : (fs.set p e).at? q = fs.at? q := by
  have hfind := find?_set_of_ne fs e hne
  cases hlisted : fs.entries.find? (fun x => x.1 = q) with
  | some x => rw [at?, at?, hfind, hlisted]
  | none =>
      rw [at?_of_not_listed hlisted, at?_of_not_listed (hfind.trans hlisted), leads_set_of_open h e hne]

/-- Going along names leads to the same place after a file has been written: the way goes through folders
only. -/
theorem walk_set_of_open (h : fs.Open p) (e : Entry) {start r : Place} {names : List String}
    (hwalk : fs.walk start names = .ok r) : (fs.set p e).walk start names = .ok r := by
  induction names generalizing start with
  | nil => exact hwalk
  | cons n names ih =>
      rw [walk] at hwalk ⊢
      split at hwalk
      · cases hwalk
      · cases hwalk
      · next hfolder =>
          have hne : start ≠ p := fun hp => h.ne_folder (hp ▸ hfolder)
          rw [at?_set_of_open h e hne, hfolder]
          dsimp only
          split at hwalk
          · cases hwalk
          · next hlimit =>
              rw [if_neg hlimit]
              exact ih hwalk

/-- A path leads to the same place after the file there has been written. -/
theorem place_set_of_open (h : fs.Open p) (e : Entry) (hplace : fs.place path = .ok p) :
    (fs.set p e).place path = .ok p := by
  rw [place] at hplace ⊢
  split at hplace
  · cases hplace
  · next hnull =>
      rw [if_neg hnull]
      split at hplace
      · cases hplace
      · next hlimit =>
          rw [if_neg hlimit]
          exact walk_set_of_open h e hplace

/-- Writing a file at a path leaves what is at other places as it is. -/
theorem at?_set_of_writable (h : fs.writable path = .ok p) (e : Entry) (hne : q ≠ p) :
    (fs.set p e).at? q = fs.at? q :=
  at?_set_of_open (open_of_writable h).2 e hne

/-- What is read at a path is what has been written there. -/
theorem read_set_of_writable (h : fs.writable path = .ok p) (bytes : Bytes) :
    (fs.set p (.file bytes)).read path = .ok bytes := by
  obtain ⟨hplace, hopen⟩ := open_of_writable h
  rw [read, place_set_of_open hopen _ hplace]
  dsimp only [bind, Except.bind]
  rw [at?_set_self]
  rfl

end

end Stencil.Files
