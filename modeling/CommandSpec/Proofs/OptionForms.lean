import CommandSpec.Proofs.KeptDefinitions
import Mathlib.Data.List.Perm.Basic

/-! Options written as a list or under keys. Both forms read the entries in turn, and a map reads
its keys besides, which name the options that have no name of their own (`readNamedEntries_eq`).
Components are read like a map and put in the order of their keys (`readNamedOptions_eq`). So the
three take the same entries, and differ in the names, in the order and in what becomes of references
(`optionForms_agree`). -/
namespace CommandSpec

variable {α : Type}

/-- An option with the name of its key, unless it has one of its own. -/
def OptionSpec.underKey (key : String) (o : OptionSpec) : OptionSpec :=
  { o with name := if o.name = "" then key else o.name }

/-- A reference takes no name. -/
def OptionEntry.underKey (key : String) : OptionEntry → OptionEntry
  | inline o => inline (o.underKey key)
  | reference target => reference target

/-- The entries of a map have these keys and these values. -/
def KeyedBy (entries : List (Node × Node)) (rows : List (String × Node)) : Prop :=
  List.Forall₂ (fun e r => e.1.readString = .ok r.1 ∧ e.2 = r.2) entries rows

theorem OptionSpec.named_eq_underKey (o : OptionSpec) (key : String) :
    o.named key = o.underKey key := by
  unfold named underKey
  by_cases h : o.name = ""
  · simp [h]
  · simp [h]

theorem OptionEntry.named_eq_underKey (entry : OptionEntry) (key : String) :
    entry.named key = entry.underKey key := by
  cases entry with
  | inline o => exact congrArg inline (o.named_eq_underKey key)
  | reference => rfl

theorem forall₂_of_readEach (read : Node → Except DecodeError α) (nodes : List Node) (as : List α)
    (h : readEach read nodes = .ok as) : List.Forall₂ (fun n a => read n = .ok a) nodes as := by
  induction nodes generalizing as with
  | nil =>
    cases h
    exact .nil
  | cons n rest ih =>
    obtain ⟨a, ha, h⟩ := bind_eq_ok h
    obtain ⟨more, hmore, h⟩ := bind_eq_ok h
    cases h
    exact .cons ha (ih more hmore)

/-! ## Entries of a map -/

theorem readNamedEntries_eq {entries : List (Node × Node)} {rows : List (String × Node)}
    (h : KeyedBy entries rows) :
    readNamedEntries entries =
      List.zipWith (fun r entry => entry.underKey r.1) rows <$>
        readEach OptionEntry.ofNode (rows.map Prod.snd) := by
  induction h with
  | nil => rfl
  | @cons e r entries rows he _ ih =>
    obtain ⟨key, v⟩ := e
    obtain ⟨hkey, rfl⟩ := he
    simp only [readNamedEntries, hkey, ok_bind, ih, List.map_cons, readEach]
    cases OptionEntry.ofNode r.2 with
    | error e => rfl
    | ok entry =>
      cases readEach OptionEntry.ofNode (rows.map Prod.snd) with
      | error e => rfl
      | ok listed => simp [← OptionEntry.named_eq_underKey]

namespace NameMap

/-- Entries put into a map one after another. -/
def insertAll (m : NameMap α) : List (String × α) → NameMap α
  | [] => m
  | (name, x) :: rest => (m.insert name x).insertAll rest

/-- Entries of different names all stay. -/
theorem insertAll_perm (m : NameMap α) (es : List (String × α))
    (hd : (m.entries.map Prod.fst ++ es.map Prod.fst).Nodup) :
    (m.insertAll es).entries.Perm (m.entries ++ es) := by
  induction es generalizing m with
  | nil => simp [insertAll]
  | cons e rest ih =>
    obtain ⟨name, x⟩ := e
    obtain ⟨hinsert, hd⟩ := m.insert_kept name x (rest.map Prod.fst) hd
    exact (ih _ hd).trans ((hinsert.append_right rest).trans List.perm_middle.symm)

end NameMap

theorem readEntryMap_eq {entries : List (Node × Node)} {rows : List (String × Node)}
    (h : KeyedBy entries rows) (m : NameMap OptionEntry) :
    readEntryMap m entries =
      (fun listed => m.insertAll ((rows.map Prod.fst).zip listed)) <$>
        readEach OptionEntry.ofNode (rows.map Prod.snd) := by
  induction h generalizing m with
  | nil => rfl
  | @cons e r entries rows he _ ih =>
    obtain ⟨key, v⟩ := e
    obtain ⟨hkey, rfl⟩ := he
    simp only [readEntryMap, hkey, ok_bind, List.map_cons, readEach]
    cases OptionEntry.ofNode r.2 with
    | error e => rfl
    | ok entry =>
      rw [ok_bind, ok_bind, ih]
      cases readEach OptionEntry.ofNode (rows.map Prod.snd) with
      | error e => rfl
      | ok listed => rfl

/-! ## Components -/

theorem readNamedOptions_eq {entries : List (Node × Node)} {rows : List (String × Node)}
    (h : KeyedBy entries rows) :
    readNamedOptions (.map entries) =
      readEach OptionEntry.ofNode (rows.map Prod.snd) >>= fun listed =>
        componentsOf .empty (NameMap.empty.insertAll ((rows.map Prod.fst).zip listed)).entries := by
  have hread : readNamedOptions (.map entries) =
      readEntryMap .empty entries >>= fun m => componentsOf .empty m.entries := rfl
  rw [hread, readEntryMap_eq h]
  cases readEach OptionEntry.ofNode (rows.map Prod.snd) with
  | error e => rfl
  | ok listed => rfl

theorem componentsOf_of_inline (entries : List (String × OptionEntry))
    (h : ∀ e ∈ entries, ∃ o, e.2 = .inline o) (m : NameMap OptionSpec) :
    ∃ m', componentsOf m entries = .ok m' := by
  induction entries generalizing m with
  | nil => exact ⟨m, rfl⟩
  | cons e rest ih =>
    obtain ⟨⟨o, ho⟩, hrest⟩ := List.forall_mem_cons.mp h
    obtain ⟨name, entry⟩ := e
    obtain rfl : entry = .inline o := ho
    exact ih hrest _

/-- The error names a reference that is there. -/
theorem componentsOf_of_reference (entries : List (String × OptionEntry))
    (h : ∃ e ∈ entries, ∃ key, e.2 = .reference key) (m : NameMap OptionSpec) :
    ∃ name key, (name, .reference key) ∈ entries ∧
      componentsOf m entries = .error (.componentReference name key) := by
  induction entries generalizing m with
  | nil =>
    obtain ⟨e, he, -⟩ := h
    cases he
  | cons e rest ih =>
    obtain ⟨name, entry⟩ := e
    cases entry with
    | reference key => exact ⟨name, key, List.mem_cons_self .., rfl⟩
    | inline o =>
      obtain ⟨e, he, key, hkey⟩ := h
      have he : e ∈ rest := by
        rcases List.mem_cons.mp he with rfl | he
        · cases hkey
        · exact he
      obtain ⟨name', key', hm, herror⟩ := ih ⟨e, he, key, hkey⟩ (m.insert name (o.named name))
      exact ⟨name', key', List.mem_cons_of_mem _ hm, herror⟩

section Rows

variable {entries : List (Node × Node)} {rows : List (String × Node)}

/-- Keys and entries side by side, in any order, are what the components are made of. -/
theorem readNamedOptions_of_listed (h : KeyedBy entries rows) (hd : (rows.map Prod.fst).Nodup)
    (listed : List OptionEntry)
    (hlisted : readEach OptionEntry.ofNode (rows.map Prod.snd) = .ok listed) :
    ∃ es, es.Perm ((rows.map Prod.fst).zip listed) ∧ (es.map Prod.fst).Nodup ∧
      readNamedOptions (.map entries) = componentsOf .empty es := by
  have hlength : (rows.map Prod.fst).length ≤ listed.length := by
    simp [← (forall₂_of_readEach _ _ _ hlisted).length_eq]
  have hnames : (((rows.map Prod.fst).zip listed).map Prod.fst).Nodup := by
    rwa [List.map_fst_zip hlength]
  refine ⟨(NameMap.empty.insertAll ((rows.map Prod.fst).zip listed)).entries,
    NameMap.insertAll_perm .empty _ hnames, NameMap.nodup_names _, ?_⟩
  rw [readNamedOptions_eq h, hlisted, ok_bind]

theorem map_namedOption_zip (rows : List (String × Node)) (options : List OptionSpec) :
    ((rows.map Prod.fst).zip (options.map OptionEntry.inline)).map namedOption =
      (List.zipWith (fun r o => (r.1, o.underKey r.1)) rows options).map some := by
  induction rows generalizing options with
  | nil => rfl
  | cons r rest ih =>
    cases options with
    | nil => rfl
    | cons o options =>
      have hfirst : namedOption (r.1, .inline o) = some (r.1, o.underKey r.1) := by
        rw [namedOption, o.named_eq_underKey]
      exact List.cons_eq_cons.mpr ⟨hfirst, ih options⟩

theorem components_of_options (h : KeyedBy entries rows) (hd : (rows.map Prod.fst).Nodup)
    (options : List OptionSpec)
    (hlisted : readEach OptionEntry.ofNode (rows.map Prod.snd) = .ok (options.map .inline)) :
    ∃ m, readNamedOptions (.map entries) = .ok m ∧
      m.entries.Perm (List.zipWith (fun r o => (r.1, o.underKey r.1)) rows options) := by
  obtain ⟨es, hperm, hnames, hread⟩ := readNamedOptions_of_listed h hd _ hlisted
  have hinline : ∀ e ∈ es, ∃ o, e.2 = OptionEntry.inline o := by
    intro e he
    obtain ⟨o, -, ho⟩ := List.mem_map.mp (List.of_mem_zip (hperm.mem_iff.mp he)).2
    exact ⟨o, ho.symm⟩
  obtain ⟨m, hm⟩ := componentsOf_of_inline es hinline .empty
  have hkept := componentsOf_kept es .empty m hm hnames
  refine ⟨m, hread.trans hm, (List.map_perm_map_iff fun _ _ => Option.some.inj).mp ?_⟩
  exact hkept.trans (map_namedOption_zip rows options ▸ hperm.map namedOption)

/-- What stands beside a key was read from the value of that key. -/
theorem exists_row_of_mem_zip (listed : List OptionEntry)
    (hlisted : readEach OptionEntry.ofNode (rows.map Prod.snd) = .ok listed) (name : String)
    (entry : OptionEntry) (hm : (name, entry) ∈ (rows.map Prod.fst).zip listed) :
    ∃ r ∈ rows, r.1 = name ∧ OptionEntry.ofNode r.2 = .ok entry := by
  have hrows := List.forall₂_map_left_iff.mp (forall₂_of_readEach _ _ _ hlisted)
  rw [List.zip_map_left] at hm
  obtain ⟨⟨r, read⟩, hmem, heq⟩ := List.mem_map.mp hm
  cases heq
  exact ⟨r, (List.of_mem_zip hmem).1, rfl, List.forall₂_zip hrows hmem⟩

theorem components_of_reference (h : KeyedBy entries rows) (hd : (rows.map Prod.fst).Nodup)
    (listed : List OptionEntry)
    (hlisted : readEach OptionEntry.ofNode (rows.map Prod.snd) = .ok listed)
    (href : ∃ key, .reference key ∈ listed) :
    ∃ r ∈ rows, ∃ key, OptionEntry.ofNode r.2 = .ok (.reference key) ∧
      readNamedOptions (.map entries) = .error (.componentReference r.1 key) := by
  obtain ⟨es, hperm, -, hread⟩ := readNamedOptions_of_listed h hd _ hlisted
  have hlength : listed.length ≤ (rows.map Prod.fst).length := by
    simp [← (forall₂_of_readEach _ _ _ hlisted).length_eq]
  have hreference : ∃ e ∈ es, ∃ key, e.2 = OptionEntry.reference key := by
    obtain ⟨key, hkey⟩ := href
    rw [← List.map_snd_zip hlength] at hkey
    obtain ⟨e, he, hkey⟩ := List.mem_map.mp hkey
    exact ⟨e, hperm.mem_iff.mpr he, key, hkey⟩
  obtain ⟨name, key, hm, herror⟩ := componentsOf_of_reference es hreference .empty
  obtain ⟨r, hr, rfl, hvalue⟩ := exists_row_of_mem_zip listed hlisted name (.reference key)
    (hperm.mem_iff.mp hm)
  exact ⟨r, hr, key, hvalue, hread.trans herror⟩

/-- **The forms of options agree.** Options under keys decode if and only if the list of their
values does, to the same entries in the same order; only that an option without a name of its own
has its key for one, and a reference does not. As components they are the same options under the
same keys, so named. These fail where the list fails, and a reference among them is an error. -/
theorem optionForms_agree (h : KeyedBy entries rows) (hdistinct : (rows.map Prod.fst).Nodup) :
    readOptionList (.map entries) =
      List.zipWith (fun r entry => entry.underKey r.1) rows <$>
        readOptionList (.seq (rows.map Prod.snd)) ∧
    (∀ options, readOptionList (.seq (rows.map Prod.snd)) = .ok (options.map .inline) →
      ∃ m, readNamedOptions (.map entries) = .ok m ∧
        m.entries.Perm (List.zipWith (fun r o => (r.1, o.underKey r.1)) rows options)) ∧
    (∀ e, readOptionList (.seq (rows.map Prod.snd)) = .error e →
      readNamedOptions (.map entries) = .error e) ∧
    (∀ listed, readOptionList (.seq (rows.map Prod.snd)) = .ok listed →
      (∃ key, .reference key ∈ listed) →
        ∃ r ∈ rows, ∃ key, OptionEntry.ofNode r.2 = .ok (.reference key) ∧
          readNamedOptions (.map entries) = .error (.componentReference r.1 key)) := by
  refine ⟨readNamedEntries_eq h, components_of_options h hdistinct, fun e he => ?_,
    components_of_reference h hdistinct⟩
  have he : readEach OptionEntry.ofNode (rows.map Prod.snd) = .error e := he
  rw [readNamedOptions_eq h, he, error_bind]

end Rows

/-- An option without a name, one with a name and one with a blank reference. -/
def formRows : List (String × Node) :=
  [("port", .map [(.text "type", .text "int")]),
    ("host", .map [(.text "name", .text "address")]),
    ("debug", .map [(.text "$ref", .text " "), (.text "required", .bool true)])]

def formOptions : List OptionSpec :=
  [{ typeTag := "int" }, { name := "address" }, { required := true }]

def referenceRow : String × Node :=
  ("color", .map [(.text "$ref", .text "#/components/options/color")])

/-- These keys, as texts. -/
def keyNodes (rows : List (String × Node)) : List (Node × Node) :=
  rows.map fun r => (.text r.1, r.2)

theorem keyedBy_keyNodes (rows : List (String × Node)) : KeyedBy (keyNodes rows) rows :=
  List.forall₂_map_left_iff.mpr (List.forall₂_same.mpr fun _ _ => ⟨rfl, rfl⟩)

/-- The reference stays a reference among the options of a command, and is none of the components;
without it, the components are the options under their keys. -/
theorem formRows_agree :
    readOptionList (.map (keyNodes (referenceRow :: formRows))) =
      .ok [.reference "#/components/options/color", .inline { name := "port", typeTag := "int" },
        .inline { name := "address" }, .inline { name := "debug", required := true }] ∧
    (∃ r ∈ referenceRow :: formRows, ∃ key, OptionEntry.ofNode r.2 = .ok (.reference key) ∧
      readNamedOptions (.map (keyNodes (referenceRow :: formRows))) =
        .error (.componentReference r.1 key)) ∧
    ∃ m, readNamedOptions (.map (keyNodes formRows)) = .ok m ∧
      m.entries.Perm [("port", { name := "port", typeTag := "int" }),
        ("host", { name := "address" }), ("debug", { name := "debug", required := true })] := by
  obtain ⟨hlist, -, -, hreference⟩ :=
    optionForms_agree (keyedBy_keyNodes (referenceRow :: formRows)) (by decide)
  obtain ⟨-, hcomponents, -, -⟩ := optionForms_agree (keyedBy_keyNodes formRows) (by decide)
  have hread : readOptionList (.seq ((referenceRow :: formRows).map Prod.snd)) =
      .ok (.reference "#/components/options/color" :: formOptions.map .inline) :=
    eq_ok_of_toOption (by decide +kernel)
  have hoptions : readOptionList (.seq (formRows.map Prod.snd)) = .ok (formOptions.map .inline) :=
    eq_ok_of_toOption (by decide +kernel)
  rw [hread] at hlist
  exact ⟨hlist, hreference _ hread ⟨_, List.mem_cons_self ..⟩, hcomponents formOptions hoptions⟩

end CommandSpec
