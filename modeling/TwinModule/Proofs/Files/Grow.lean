import TwinModule.Files.Store
/-!
Where paths lead, and stores that grow: directories stay directories, files stay files, perhaps with other bytes, and
the links stay the same. What a path led to, it still leads to.
-/
set_option autoImplicit false

namespace TwinModule.Store

variable {s s' s'' : Store} {p : FilePath} {l here : Location} {names : List String} {links : Nat}

/-- A name that is looked up. -/
def IsStep (name : String) : Prop := name ≠ ".." ∧ name.utf8ByteSize ≤ maxName

/-- The walks that come to an end: from a place along names to where they lead. -/
inductive Leads (s : Store) : Nat → Location → List String → Location → Prop where
  | arrive (links : Nat) (here : Location) : Leads s links here [] here
  | up {links : Nat} {here l : Location} {rest : List String} :
      Leads s links here.dropLast rest l → Leads s links here (".." :: rest) l
  | inside {links : Nat} {here l : Location} {name : String} {rest : List String} : IsStep name →
      s.find? (here ++ [name]) = some .directory → Leads s links (here ++ [name]) rest l →
      Leads s links here (name :: rest) l
  | last {links : Nat} {here : Location} {name : String} : IsStep name →
      (s.find? (here ++ [name]) = none ∨ ∃ bytes, s.find? (here ++ [name]) = some (.file bytes)) →
      Leads s links here [name] (here ++ [name])
  | along {links : Nat} {here l : Location} {name : String} {rest : List String} {target : FilePath} : IsStep name →
      s.find? (here ++ [name]) = some (.link target) →
      Leads s links (if target.isAbsolute then [] else here) (target.names ++ rest) l →
      Leads s (links + 1) here (name :: rest) l

theorem leads_of_walk (h : s.walk links here names = .ok l) : s.Leads links here names l := by
  induction links, here, names using Store.walk.induct s with
  | case1 links here =>
    simp only [walk, Except.ok.injEq] at h
    exact h ▸ .arrive links here
  | case2 links here rest ih =>
    simp only [walk, if_pos] at h
    exact .up (ih h)
  | case3 links here name rest hname hlong => simp [walk, hname, hlong] at h
  | case4 links here name rest hname hshort hnone hrest =>
    obtain rfl := List.isEmpty_iff.1 hrest
    simp only [walk, hname, hshort, hnone, if_false, List.isEmpty_nil, if_true, Except.ok.injEq] at h
    exact h ▸ .last ⟨hname, Nat.not_lt.1 hshort⟩ (.inl hnone)
  | case5 links here name rest hname hshort hnone hrest => simp [walk, hname, hshort, hnone, hrest] at h
  | case6 links here name rest hname hshort hdirectory ih =>
    simp only [walk, hname, hshort, hdirectory, if_false] at h
    exact .inside ⟨hname, Nat.not_lt.1 hshort⟩ hdirectory (ih h)
  | case7 links here name rest hname hshort bytes hfile hrest =>
    obtain rfl := List.isEmpty_iff.1 hrest
    simp only [walk, hname, hshort, hfile, if_false, List.isEmpty_nil, if_true, Except.ok.injEq] at h
    exact h ▸ .last ⟨hname, Nat.not_lt.1 hshort⟩ (.inr ⟨bytes, hfile⟩)
  | case8 links here name rest hname hshort bytes hfile hrest => simp [walk, hname, hshort, hfile, hrest] at h
  | case9 here name rest hname hshort target hlink => simp [walk, hname, hshort, hlink] at h
  | case10 here name rest hname hshort target hlink links ih =>
    rw [walk] at h
    simp only [hname, hshort, hlink, if_false] at h
    exact .along ⟨hname, Nat.not_lt.1 hshort⟩ hlink (ih h)

theorem walk_of_leads (h : s.Leads links here names l) : s.walk links here names = .ok l := by
  induction h with
  | arrive links here => rw [walk]
  | up _ ih =>
    rw [walk, if_pos rfl]
    exact ih
  | inside hname hdirectory _ ih =>
    rw [walk, if_neg hname.1, if_neg (Nat.not_lt.2 hname.2)]
    simp only [hdirectory]
    exact ih
  | last hname hend =>
    rw [walk, if_neg hname.1, if_neg (Nat.not_lt.2 hname.2)]
    rcases hend with hnone | ⟨bytes, hfile⟩
    · simp [hnone]
    · simp [hfile]
  | along hname hlink _ ih =>
    rw [walk, if_neg hname.1, if_neg (Nat.not_lt.2 hname.2)]
    simp only [hlink]
    exact ih

theorem locate_eq_ok_iff : s.locate p = .ok l ↔ s.Leads maxLinks [] p.names l := ⟨leads_of_walk, walk_of_leads⟩

/-- A place that can be entered: the directories down to it are there. -/
def Open (s : Store) (l : Location) : Prop := ∀ k, k <+: l → s.find? k = some .directory

theorem open_nil (s : Store) : s.Open [] := fun k hk => by
  rw [List.prefix_nil.1 hk]
  rfl

theorem Open.directory (h : s.Open l) : s.find? l = some .directory := h l (List.prefix_refl l)

theorem Open.dropLast (h : s.Open l) : s.Open l.dropLast := fun k hk => h k (hk.trans (List.dropLast_prefix l))

theorem Open.concat (h : s.Open l) {name : String} (hd : s.find? (l ++ [name]) = some .directory) :
    s.Open (l ++ [name]) := by
  intro k hk
  rcases List.prefix_concat_iff.1 hk with rfl | hk
  · exact hd
  · exact h k hk

/-- Where a link in a place leads to begins in the place or at the root. -/
theorem Open.start (h : s.Open l) (b : Bool) : s.Open (if b then [] else l) := by
  cases b with
  | false => exact h
  | true => exact open_nil s

/-- Where a walk ends is a directory, a file or nothing yet, but no link. -/
theorem Leads.place (h : s.Leads links here names l) (ho : s.Open here) :
    s.find? l = some .directory ∨ s.find? l = none ∨ ∃ bytes, s.find? l = some (.file bytes) := by
  induction h with
  | arrive links here => exact .inl ho.directory
  | up _ ih => exact ih ho.dropLast
  | inside _ hdirectory _ ih => exact ih (ho.concat hdirectory)
  | last _ hend => exact .inr hend
  | along _ _ _ ih => exact ih (ho.start _)

theorem Leads.split {xs ys : List String} (h : s.Leads links here (xs ++ ys) l) (ho : s.Open here) (hys : ys ≠ []) :
    ∃ fewer between, s.Leads links here xs between ∧ s.find? between = some .directory ∧
      s.Leads fewer between ys l := by
  generalize hnames : xs ++ ys = names at h
  induction h generalizing xs with
  | arrive links here => exact absurd (List.append_eq_nil_iff.1 hnames).2 hys
  | @up links here l rest hrest ih =>
    rcases List.append_eq_cons_iff.1 hnames with ⟨rfl, rfl⟩ | ⟨xs, rfl, hxs⟩
    · exact ⟨links, here, .arrive _ _, ho.directory, .up hrest⟩
    · obtain ⟨fewer, between, hfirst, hd, hsecond⟩ := ih ho.dropLast hxs.symm
      exact ⟨fewer, between, .up hfirst, hd, hsecond⟩
  | @inside links here l name rest hname hdirectory hrest ih =>
    rcases List.append_eq_cons_iff.1 hnames with ⟨rfl, rfl⟩ | ⟨xs, rfl, hxs⟩
    · exact ⟨links, here, .arrive _ _, ho.directory, .inside hname hdirectory hrest⟩
    · obtain ⟨fewer, between, hfirst, hd, hsecond⟩ := ih (ho.concat hdirectory) hxs.symm
      exact ⟨fewer, between, .inside hname hdirectory hfirst, hd, hsecond⟩
  | @last links here name hname hend =>
    rcases List.append_eq_cons_iff.1 hnames with ⟨rfl, rfl⟩ | ⟨xs, rfl, hxs⟩
    · exact ⟨links, here, .arrive _ _, ho.directory, .last hname hend⟩
    · exact absurd (List.append_eq_nil_iff.1 hxs.symm).2 hys
  | @along links here l name rest target hname hlink hrest ih =>
    rcases List.append_eq_cons_iff.1 hnames with ⟨rfl, rfl⟩ | ⟨xs, rfl, rfl⟩
    · exact ⟨links + 1, here, .arrive _ _, ho.directory, .along hname hlink hrest⟩
    · obtain ⟨fewer, between, hfirst, hd, hsecond⟩ := ih (ho.start _) (List.append_assoc target.names xs ys)
      exact ⟨fewer, between, .along hname hlink hfirst, hd, hsecond⟩

theorem look_eq_ok_iff {e : Entry} : s.look p = .ok (l, e) ↔ s.locate p = .ok l ∧ s.find? l = some e := by
  unfold look
  cases s.locate p with
  | error problem => simp [bind, Except.bind]
  | ok k =>
    simp only [bind, Except.bind, Except.ok.injEq]
    cases hk : s.find? k with
    | none =>
      constructor
      · rintro ⟨⟩
      · rintro ⟨rfl, h⟩
        rw [hk] at h
        cases h
    | some e' =>
      constructor
      · rintro ⟨⟩
        exact ⟨rfl, hk⟩
      · rintro ⟨rfl, h⟩
        rw [hk] at h
        cases h
        rfl

theorem holds_eq_true_iff {ask : Entry → Bool} :
    s.holds p ask = .ok true ↔ ∃ l e, s.locate p = .ok l ∧ s.find? l = some e ∧ ask e = true := by
  simp only [← and_assoc, ← look_eq_ok_iff]
  unfold holds
  cases s.look p with
  | ok found =>
    simp only [Except.ok.injEq, Prod.ext_iff]
    constructor
    · intro h
      exact ⟨found.1, found.2, ⟨rfl, rfl⟩, h⟩
    · rintro ⟨l, e, ⟨-, rfl⟩, h⟩
      exact h
  | error problem => cases problem <;> simp

theorem isFile_eq_true_iff :
    s.isFile p = .ok true ↔ ∃ l bytes, s.locate p = .ok l ∧ s.find? l = some (.file bytes) := by
  rw [isFile, holds_eq_true_iff]
  constructor
  · rintro ⟨l, e, hl, he, hfile⟩
    cases e with
    | file bytes => exact ⟨l, bytes, hl, he⟩
    | directory | link target => cases hfile
  · rintro ⟨l, bytes, hl, he⟩
    exact ⟨l, .file bytes, hl, he, rfl⟩

theorem isDirectory_eq_true_iff :
    s.isDirectory p = .ok true ↔ ∃ l, s.locate p = .ok l ∧ s.find? l = some .directory := by
  rw [isDirectory, holds_eq_true_iff]
  constructor
  · rintro ⟨l, e, hl, he, hdirectory⟩
    cases e with
    | directory => exact ⟨l, hl, he⟩
    | file bytes | link target => cases hdirectory
  · rintro ⟨l, hl, he⟩
    exact ⟨l, .directory, hl, he, rfl⟩

theorem isDirectory_of_isFile (h : s.isFile p = .ok true) : s.isDirectory p = .ok false := by
  obtain ⟨l, bytes, hl, hfile⟩ := isFile_eq_true_iff.1 h
  simp only [isDirectory, holds, look_eq_ok_iff.2 ⟨hl, hfile⟩]

theorem read_eq_ok_iff {bytes : ByteArray} :
    s.read p = .ok bytes ↔ ∃ l, s.locate p = .ok l ∧ s.find? l = some (.file bytes) := by
  simp only [← look_eq_ok_iff]
  unfold read
  cases s.look p with
  | error problem => simp [bind, Except.bind]
  | ok found =>
    obtain ⟨l, e⟩ := found
    cases e <;> simp [bind, Except.bind, throw, throwThe, MonadExceptOf.throw, pure, Except.pure]

/-- Whatever was there is still there, and no link is new. -/
structure Grows (s s' : Store) : Prop where
  directory : ∀ l, s.find? l = some .directory → s'.find? l = some .directory
  file : ∀ l bytes, s.find? l = some (.file bytes) → ∃ bytes', s'.find? l = some (.file bytes')
  link : ∀ l target, s'.find? l = some (.link target) ↔ s.find? l = some (.link target)
  size : s.entries.length ≤ s'.entries.length

theorem Grows.refl (s : Store) : s.Grows s :=
  ⟨fun _ h => h, fun _ bytes h => ⟨bytes, h⟩, fun _ _ => Iff.rfl, Nat.le_refl _⟩

theorem Grows.trans (h : s.Grows s') (h' : s'.Grows s'') : s.Grows s'' where
  directory l hl := h'.directory l (h.directory l hl)
  file l bytes hl := by
    obtain ⟨bytes', hl'⟩ := h.file l bytes hl
    exact h'.file l bytes' hl'
  link l target := (h'.link l target).trans (h.link l target)
  size := Nat.le_trans h.size h'.size

theorem Grows.leads (h : s.Grows s') (hl : s.Leads links here names l) : s'.Leads links here names l := by
  induction hl with
  | arrive links here => exact .arrive links here
  | up _ ih => exact .up ih
  | inside hname hdirectory _ ih => exact .inside hname (h.directory _ hdirectory) ih
  | @last links here name hname hend =>
    -- what was missing at the end of the walk may be there now
    cases hnow : s'.find? (here ++ [name]) with
    | none => exact .last hname (.inl hnow)
    | some e =>
      cases e with
      | directory => exact .inside hname hnow (.arrive ..)
      | file bytes => exact .last hname (.inr ⟨bytes, hnow⟩)
      | link target =>
        rw [h.link] at hnow
        rcases hend with hnone | ⟨bytes, hfile⟩
        · rw [hnone] at hnow
          cases hnow
        · rw [hfile] at hnow
          cases hnow
  | along hname hlink _ ih => exact .along hname ((h.link ..).2 hlink) ih

theorem Grows.locate (h : s.Grows s') (hl : s.locate p = .ok l) : s'.locate p = .ok l :=
  locate_eq_ok_iff.2 (h.leads (locate_eq_ok_iff.1 hl))

theorem Grows.isFile (h : s.Grows s') (hp : s.isFile p = .ok true) : s'.isFile p = .ok true := by
  obtain ⟨l, bytes, hl, hfile⟩ := isFile_eq_true_iff.1 hp
  obtain ⟨bytes', hfile'⟩ := h.file l bytes hfile
  exact isFile_eq_true_iff.2 ⟨l, bytes', h.locate hl, hfile'⟩

theorem Grows.isDirectory (h : s.Grows s') (hp : s.isDirectory p = .ok true) : s'.isDirectory p = .ok true := by
  obtain ⟨l, hl, hdirectory⟩ := isDirectory_eq_true_iff.1 hp
  exact isDirectory_eq_true_iff.2 ⟨l, h.locate hl, h.directory l hdirectory⟩

/-- Only links matter to a real path, and more of them may be followed. -/
theorem Grows.follow (h : s.Grows s') {entered : List Location} {ways : List Way} {links' : Nat}
    (hlinks : links ≤ links') (hf : s.follow links entered here ways = .ok l) :
    s'.follow links' entered here ways = .ok l := by
  induction links, entered, here, ways using Store.follow.induct s generalizing links' with
  | case1 links entered here =>
    rw [Store.follow] at hf ⊢
    exact hf
  | case2 links entered here link rest ih =>
    rw [Store.follow] at hf ⊢
    exact ih hlinks hf
  | case3 links entered here rest ih =>
    rw [Store.follow, if_pos rfl] at hf ⊢
    exact ih hlinks hf
  | case4 entered here name rest hname target hlink => simp [Store.follow, hname, hlink] at hf
  | case5 entered here name rest hname target hlink links hin =>
    rw [Store.follow, if_neg hname] at hf
    simp only [hlink, if_pos hin] at hf
    cases hf
  | case6 entered here name rest hname target hlink links hnew ih =>
    obtain ⟨links', rfl⟩ : ∃ n, links' = n + 1 := ⟨links' - 1, by omega⟩
    rw [Store.follow, if_neg hname] at hf ⊢
    simp only [hlink, (h.link ..).2 hlink, if_neg hnew] at hf ⊢
    exact ih (by omega) hf
  | case7 links entered here name rest hname hnot ih =>
    have hnot' : ∀ target, s'.find? (here ++ [name]) ≠ some (.link target) := fun target ht =>
      hnot target ((h.link ..).1 ht)
    rw [Store.follow, if_neg hname] at hf ⊢
    simp only at hf ⊢
    exact ih hlinks hf

theorem Grows.realPath (h : s.Grows s') {real : FilePath} (hp : s.realPath p = .ok real) :
    s'.realPath p = .ok real := by
  have hsize : maxLinks + s.entries.length ≤ maxLinks + s'.entries.length := Nat.add_le_add_left h.size _
  unfold Store.realPath at hp ⊢
  cases hf : s.follow (maxLinks + s.entries.length) [] [] (p.names.map Way.name) with
  | error stuck =>
    rw [hf] at hp
    cases hp
  | ok l =>
    rw [hf] at hp
    rw [h.follow hsize hf]
    exact hp

end TwinModule.Store
