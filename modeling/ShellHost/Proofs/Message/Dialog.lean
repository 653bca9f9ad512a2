import ShellHost.Message.Dialog
import ShellHost.Proofs.Json.Members
import ShellHost.Proofs.Text.Lossy

/-!
# Dialogs come back

A request for a dialog can be written if its path is a text (`Writable`). What is then sent has its members in ascending
order (`DialogRequest.members`), and it is read as the request that was written (`DialogRequest.convert_members`). The
paths that were chosen are sent as texts: a path that is no text comes back as far as it is one
(`convert_selection`).
-/

namespace ShellHost

open Json

/-! ## Lists -/

namespace Json

theorem mapM_map_eq_ok {α β ε ι : Type} {read : β → Except ε α} {write : ι → β} {g : ι → α} {items : List ι}
    (h : ∀ i ∈ items, read (write i) = .ok (g i)) : (items.map write).mapM read = .ok (items.map g) := by
  induction items with
  | nil => rfl
  | cons i items ih =>
    obtain ⟨hi, hitems⟩ := List.forall_mem_cons.mp h
    rw [List.map_cons, List.mapM_cons, hi, ih hitems]
    rfl

/-- A list comes back if each item does. -/
theorem list_ofValue_map {ι : Type} {d : Decoder ι} {write : ι → Value} (h : ∀ i, d.ofValue (write i) = .ok i)
    (items : List ι) : (list d).ofValue (.array (items.map write)) = .ok items := by
  have hread : (items.map write).mapM d.ofValue = .ok (items.map id) := mapM_map_eq_ok fun i _ => h i
  rwa [List.map_id] at hread

end Json

/-! ## Properties and filters -/

theorem DialogProperty.ofValue_toValue (p : DialogProperty) : decoder.ofValue p.toValue = .ok p := by
  cases p <;> rfl

namespace FileFilter

/-- The members in ascending order of their keys. -/
def members (f : FileFilter) : List (String × Value) :=
  [("extensions", .array (f.extensions.map .string)), ("name", .string f.name)]

theorem sort_toValue (f : FileFilter) : f.toValue.sort = .object f.members := by
  have hextensions : sortItems (f.extensions.map .string) = f.extensions.map .string :=
    sortItems_map (fun _ => rfl) f.extensions
  have hsorted : sortMembers [("name", .string f.name), ("extensions", .array (f.extensions.map .string))] = f.members := by
    simp only [sortMembers, List.foldl_cons, List.foldl_nil, insertDescending, String.reduceLT]
    rfl
  rw [toValue, Value.sort, sortValues_eq_map, ← hsorted]
  simp only [List.map_cons, List.map_nil, Value.sort, hextensions]

theorem ofValue_members (f : FileFilter) : decoder.ofValue (.object f.members) = .ok f := by
  have hextensions : (list string).ofValue (.array (f.extensions.map .string)) = .ok f.extensions :=
    list_ofValue_map (fun _ => rfl) f.extensions
  have hmembers : f.members.foldlM record.addMember {} = .ok ⟨some f.name, some f.extensions⟩ :=
    foldlM_cons_eq_ok.mpr ⟨⟨none, some f.extensions⟩,
      (Record.addMember_field rfl).mpr ⟨rfl, f.extensions, hextensions, rfl⟩,
      foldlM_cons_eq_ok.mpr ⟨_, (Record.addMember_field rfl).mpr ⟨rfl, f.name, rfl, rfl⟩, rfl⟩⟩
  show record.ofMembers f.members = .ok f
  have hempty : record.empty = {} := rfl
  rw [Record.ofMembers, hempty, hmembers]
  rfl

theorem plain_members (f : FileFilter) : (Value.object f.members).Plain := by
  apply plain_object
  · show ["extensions", "name"].Pairwise (· < ·)
    decide
  · intro m hm
    rcases List.mem_pair.mp hm with rfl | rfl
    · exact plain_array_map plain_string f.extensions
    · exact plain_string f.name

theorem depth_members (f : FileFilter) : (Value.object f.members).depth ≤ 2 := by
  rw [depth_object_le]
  intro m hm
  rcases List.mem_pair.mp hm with rfl | rfl
  · exact depth_array_map_le (fun _ => Nat.zero_le 0) f.extensions
  · exact Nat.zero_le 1

end FileFilter

/-! ## Paths -/

/-- A path comes back from the text that it is. -/
theorem encodeString_of_decode {bytes : RawPath} {cs : List Char} (h : Utf8.decode bytes = .ok cs) :
    Utf8.encodeString (String.ofList cs) = bytes := by
  rw [Utf8.encodeString, String.toList_ofList]
  exact Utf8.encode_of_decode h

/-- What arrives of a path: all of it if it is a text, and the text that is left of it otherwise. -/
def shownPath (path : RawPath) : RawPath :=
  match Utf8.decode path with
  | .ok _ => path
  | .error _ => Utf8.encode (Utf8.decodeLossy path)

theorem encode_decodeLossy (path : RawPath) : Utf8.encode (Utf8.decodeLossy path) = shownPath path := by
  unfold shownPath
  cases h : Utf8.decode path with
  | ok cs => rw [Utf8.decodeLossy_of_decode h, Utf8.encode_of_decode h]
  | error f => rfl

/-- The paths that are sent are those that arrive, one for one. -/
theorem convert_selection (paths : List RawPath) :
    (list pathDecoder).convert (.array (paths.map fun p => .string (String.ofList (Utf8.decodeLossy p))))
      = .ok (paths.map shownPath) := by
  have hpath : ∀ p ∈ paths, pathDecoder.ofValue (.string (String.ofList (Utf8.decodeLossy p))) = .ok (shownPath p) := by
    intro p _
    show Except.ok (Utf8.encodeString (String.ofList (Utf8.decodeLossy p))) = _
    rw [Utf8.encodeString, String.toList_ofList, encode_decodeLossy]
  have hpaths := mapM_map_eq_ok hpath
  rw [Decoder.convert]
  show Except.mapError _ ((paths.map _).mapM pathDecoder.ofValue) = _
  rw [hpaths]
  rfl

/-! ## Requests -/

namespace DialogRequest

/-- The path, if there is one, is a text. -/
def Writable (r : DialogRequest) : Prop := ∀ bytes, r.defaultPath = some bytes → ∃ cs, Utf8.decode bytes = .ok cs

/-- The member of a text, if there is one. -/
def textMember (key : String) (text : Option String) : List (String × Value) :=
  (text.map fun s => (key, Value.string s)).toList

/-- The members in ascending order of their keys, with a path that is this text. -/
def members (r : DialogRequest) (path : Option String) : List (String × Value) :=
  textMember "defaultPath" path ++
    [("filters", .array (r.filters.map fun f => .object f.members)),
      ("properties", .array (r.properties.map DialogProperty.toValue))] ++ textMember "title" r.title

variable {r : DialogRequest} {path : Option String}

theorem writable_iff : r.Writable ↔ ∃ path : Option String, r.defaultPath = path.map Utf8.encodeString := by
  constructor
  · intro h
    cases hpath : r.defaultPath with
    | none => exact ⟨none, rfl⟩
    | some bytes =>
      obtain ⟨cs, hcs⟩ := h bytes hpath
      exact ⟨some (String.ofList cs), by rw [Option.map_some, encodeString_of_decode hcs]⟩
  · rintro ⟨path, hpath⟩ bytes hbytes
    rw [hbytes] at hpath
    obtain ⟨s, rfl, hs⟩ := Option.map_eq_some_iff.mp hpath.symm
    exact ⟨s.toList, by rw [← hs, Utf8.encodeString, Utf8.decode_encode]⟩

/-- The members as they are listed: the title and the path first. -/
def listed (title path : Option String) (properties filters : Value) : List (String × Value) :=
  textMember "title" title ++ textMember "defaultPath" path ++ [("properties", properties), ("filters", filters)]

theorem sortValues_listed (title path : Option String) (properties filters : Value) :
    sortValues (listed title path properties filters) = listed title path properties.sort filters.sort := by
  rw [sortValues_eq_map]
  cases title <;> cases path <;> rfl

theorem sortMembers_listed (title path : Option String) (properties filters : Value) :
    sortMembers (listed title path properties filters)
      = textMember "defaultPath" path ++ [("filters", filters), ("properties", properties)] ++ textMember "title" title := by
  cases title <;> cases path <;>
    simp only [listed, textMember, Option.map_none, Option.map_some, Option.toList_none, Option.toList_some, List.nil_append,
      List.cons_append, sortMembers, List.foldl_cons, List.foldl_nil, insertDescending, String.reduceLT, String.reduceEq,
      if_true, if_false] <;> rfl

/-- A request whose path is a text is written with its members in order. -/
theorem toValue?_of_path (hpath : r.defaultPath = path.map Utf8.encodeString) :
    r.toValue?.map Value.sort = some (.object (r.members path)) := by
  have hlisted : r.toValue? = some (.object (listed r.title path (.array (r.properties.map DialogProperty.toValue))
      (.array (r.filters.map FileFilter.toValue)))) := by
    rw [toValue?, hpath]
    cases path with
    | none => rfl
    | some s =>
      simp only [Option.map_some, Utf8.encodeString, Utf8.decode_encode, String.ofList_toList]
      rfl
  have hproperties : sortItems (r.properties.map DialogProperty.toValue) = r.properties.map DialogProperty.toValue :=
    sortItems_map (fun _ => rfl) r.properties
  have hfilters := sortItems_map FileFilter.sort_toValue r.filters
  rw [hlisted, Option.map_some, Value.sort, sortValues_listed, sortMembers_listed, Value.sort, Value.sort, hproperties,
    hfilters]
  rfl

theorem toValue?_of_not_writable (h : ¬ r.Writable) : r.toValue? = none := by
  cases hpath : r.defaultPath with
  | none => exact absurd (writable_iff.mpr ⟨none, hpath⟩) h
  | some bytes =>
    cases hdecode : Utf8.decode bytes with
    | ok cs =>
      refine absurd (writable_iff.mpr ⟨some (String.ofList cs), ?_⟩) h
      rw [hpath, Option.map_some, encodeString_of_decode hdecode]
    | error f => simp [toValue?, hpath, hdecode]

/-- As they are written, the members fill the draft one after the other. -/
theorem foldlM_members (hpath : r.defaultPath = path.map Utf8.encodeString) :
    (r.members path).foldlM record.addMember {}
      = .ok ⟨r.title.map some, r.defaultPath.map some, some r.properties, some r.filters⟩ := by
  obtain ⟨title, defaultPath, properties, filters⟩ := r
  obtain rfl : defaultPath = path.map Utf8.encodeString := hpath
  have hfilters : (list FileFilter.decoder).ofValue (.array (filters.map fun f => .object f.members)) = .ok filters :=
    list_ofValue_map FileFilter.ofValue_members filters
  have hproperties :
      (list DialogProperty.decoder).ofValue (.array (properties.map DialogProperty.toValue)) = .ok properties :=
    list_ofValue_map DialogProperty.ofValue_toValue properties
  have htitle : ∀ d : Draft, d.title = none →
      (textMember "title" title).foldlM record.addMember d = .ok { d with title := title.map some } := by
    intro d hempty
    cases title with
    | none =>
      show Except.ok d = _
      rw [Option.map_none, ← hempty]
    | some s =>
      have hadded := (Record.addMember_field (r := record) (m := ("title", .string s)) rfl).mpr ⟨hempty, some s, rfl, rfl⟩
      exact foldlM_cons_eq_ok.mpr ⟨_, hadded, rfl⟩
  have hrest : ∀ d : Draft, d.filters = none → d.properties = none → d.title = none →
      (members ⟨title, none, properties, filters⟩ none).foldlM record.addMember d
        = .ok { d with title := title.map some, properties := some properties, filters := some filters } := by
    intro d hnofilters hnoproperties hnotitle
    refine foldlM_cons_eq_ok.mpr ⟨_, (Record.addMember_field rfl).mpr ⟨hnofilters, filters, hfilters, rfl⟩, ?_⟩
    refine foldlM_cons_eq_ok.mpr ⟨_, (Record.addMember_field rfl).mpr ⟨hnoproperties, properties, hproperties, rfl⟩, ?_⟩
    exact htitle _ hnotitle
  -- a path comes before all else
  cases path with
  | none => exact hrest {} rfl rfl rfl
  | some s =>
    exact foldlM_cons_eq_ok.mpr ⟨_, (Record.addMember_field rfl).mpr ⟨rfl, some (Utf8.encodeString s), rfl, rfl⟩,
      hrest _ rfl rfl rfl⟩

/-- A request is read from what was written of it. -/
theorem convert_members (hpath : r.defaultPath = path.map Utf8.encodeString) :
    decoder.convert (.object (r.members path)) = .ok r := by
  have hempty : record.empty = {} := rfl
  show Except.mapError _ (record.ofMembers (r.members path)) = .ok r
  rw [Record.ofMembers, hempty, foldlM_members hpath]
  obtain ⟨title, defaultPath, properties, filters⟩ := r
  cases title <;> cases defaultPath <;> rfl

/-! ## The form of what is written -/

/-- The values of the members are texts and two arrays. -/
theorem forall_mem_members {P : Value → Prop} (hstring : ∀ s, P (.string s))
    (hfilters : P (.array (r.filters.map fun f => .object f.members)))
    (hproperties : P (.array (r.properties.map DialogProperty.toValue))) : ∀ m ∈ r.members path, P m.2 := by
  intro m hm
  simp only [members, textMember, List.mem_append, List.mem_cons, Option.mem_toList, Option.map_eq_some_iff,
    List.not_mem_nil, or_false] at hm
  rcases hm with (⟨s, -, rfl⟩ | rfl | rfl) | ⟨s, -, rfl⟩
  · exact hstring s
  · exact hfilters
  · exact hproperties
  · exact hstring s

theorem keys_members (r : DialogRequest) (path : Option String) :
    ((r.members path).map Prod.fst).Pairwise (· < ·) := by
  have hkeys : ((r.members path).map Prod.fst).Sublist ["defaultPath", "filters", "properties", "title"] := by
    obtain ⟨title, defaultPath, properties, filters⟩ := r
    cases path <;> cases title <;> simp [members, textMember]
  have hordered : ["defaultPath", "filters", "properties", "title"].Pairwise (· < ·) := by decide
  exact hordered.sublist hkeys

theorem plain_members (r : DialogRequest) (path : Option String) : (Value.object (r.members path)).Plain := by
  apply plain_object (keys_members r path)
  apply forall_mem_members plain_string
  · exact plain_array_map FileFilter.plain_members r.filters
  · exact plain_array_map (fun p => plain_string p.name) r.properties

theorem depth_members (r : DialogRequest) (path : Option String) : (Value.object (r.members path)).depth ≤ 4 := by
  rw [depth_object_le]
  apply forall_mem_members (P := fun v => v.depth ≤ 3)
  · exact fun _ => Nat.zero_le 3
  · exact depth_array_map_le FileFilter.depth_members r.filters
  · exact depth_array_map_le (fun _ => Nat.zero_le 2) r.properties

end DialogRequest

end ShellHost
