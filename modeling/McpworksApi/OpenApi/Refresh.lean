import McpworksApi.Models.Db
import McpworksApi.OpenApi.Import
import McpworksApi.Py.Dict

/-! Refreshing the endpoints of a registered API, `refresh_endpoints` of `services/api_server.py`. What is enabled or
published stays so under its operation id. -/

namespace McpworksApi.OpenApi

open Models Py Session

def getByName (db : Db) (namespaceId : ℕ) (name : String) : Except ApiError NamespaceApiServer := do
  match ← scalarOneOrNone (db.apiServers.select fun s => s.namespaceId = namespaceId ∧ s.name = name) with
  | none => .error (.app .notFound ("API server '" ++ name ++ "' not found"))
  | some server => .ok server

def endpointsOf (db : Db) (serverId : ℕ) : List ApiEndpoint :=
  (db.apiEndpoints.select fun e => e.apiServerId = serverId).insertionSort fun a b => a.operationId ≤ b.operationId

def existingOf (db : Db) (serverId : ℕ) : List ApiEndpoint :=
  (endpointsOf db serverId).foldl (upsert ApiEndpoint.operationId) []

def refreshSource (name : String) (server : NamespaceApiServer) : Except ApiError String :=
  if server.specSource = .manual ∨ given server.openapiUrl = false then
    .error (.app .validation ("server '" ++ name ++ "' has no OpenAPI source to refresh"))
  else .ok (server.openapiUrl.getD "")

def currentEndpoints (env : SpecEnv) (url : String) : Except ApiError (List ImportedEndpoint) := do
  let text ← env.fetchSpecText url
  match parseSpec env text >>= fun spec => extractEndpoints spec maxEndpointsPerServer with
  | .ok result => .ok result.endpoints
  | .error (.openApiImport message) =>
    .error (.app .validation ("OpenAPI refresh failed (cached endpoints kept): " ++ message))
  | .error (.other e) => .error e

structure EndpointColumns where
  operationId : String
  method : HttpMethod
  path : String
  summary : Option String
  paramSchema : Json
  requestBodySchema : Option Json
  responseSchema : Option Json

def columnsOf (imp : ImportedEndpoint) : Except ApiError EndpointColumns := do
  let _ ← varcharColumn 128 (.str imp.operationId)
  let _ ← varcharColumn 500 (.str imp.path)
  let summary ← varcharColumn 255 imp.summary
  .ok { operationId := imp.operationId, method := imp.method, path := imp.path, summary
        paramSchema := imp.paramSchema
        requestBodySchema := jsonColumn imp.requestBodySchema
        responseSchema := jsonColumn imp.responseSchema }

def EndpointColumns.applyTo (c : EndpointColumns) (e : ApiEndpoint) : ApiEndpoint :=
  { e with method := c.method, path := c.path, summary := c.summary, paramSchema := c.paramSchema
           requestBodySchema := c.requestBodySchema, responseSchema := c.responseSchema }

def EndpointColumns.newRow (c : EndpointColumns) (serverId : ℕ) (id : ℕ) : ApiEndpoint :=
  { id, apiServerId := serverId, operationId := c.operationId, method := c.method, path := c.path,
    summary := c.summary
    paramSchema := c.paramSchema, requestBodySchema := c.requestBodySchema, responseSchema := c.responseSchema
    enabled := false, source := .imported }

def existingAt (existing : List ApiEndpoint) (operationId : String) : Option ApiEndpoint :=
  existing.find? (·.operationId = operationId)

def writes (existing : List ApiEndpoint) (imp : ImportedEndpoint) : Bool :=
  (existingAt existing imp.operationId).all (·.source = .imported)

def mergeEndpoint (serverId : ℕ) (existing : List ApiEndpoint) (t : Table ApiEndpoint) (c : EndpointColumns) :
    Table ApiEndpoint :=
  match existingAt existing c.operationId with
  | some e => t.update e.id c.applyTo
  | none => t.insert (c.newRow serverId)

def isChanged (e : ApiEndpoint) (imp : ImportedEndpoint) : Bool :=
  e.method ≠ imp.method ∨ e.path ≠ imp.path ∨ e.paramSchema.sorted.dumps ≠ imp.paramSchema.sorted.dumps

structure RefreshReport where
  added : List String
  removed : List String
  changed : List String
  unchanged : ℕ
  preservedEnabled : List String

def removedEndpoints (existing : List ApiEndpoint) (incoming : List ImportedEndpoint) : List ApiEndpoint :=
  existing.filter fun e => e.source = .imported ∧ e.operationId ∉ incoming.map ImportedEndpoint.operationId

def refreshReport (existing : List ApiEndpoint) (incoming : List ImportedEndpoint) : RefreshReport :=
  let found := incoming.filterMap fun imp =>
    ((existingAt existing imp.operationId).filter (·.source = .imported)).map fun e => (e, imp)
  let added := (incoming.filter fun imp => (existingAt existing imp.operationId).isNone).map
    ImportedEndpoint.operationId
  let changed := (found.filter fun p => isChanged p.1 p.2).map (·.2.operationId)
  { added, changed
    removed := (removedEndpoints existing incoming).map ApiEndpoint.operationId
    unchanged := incoming.length - added.length - changed.length
    preservedEnabled := (found.filter (·.1.enabled)).map (·.2.operationId) }

def refreshedCount (existing : List ApiEndpoint) (incoming : List ImportedEndpoint) : ℕ :=
  incoming.length + (existing.filter fun e =>
    e.source = .manual ∧ e.operationId ∉ incoming.map ImportedEndpoint.operationId).length

structure RefreshInputs where
  server : NamespaceApiServer
  existing : List ApiEndpoint
  incoming : List ImportedEndpoint
  columns : List EndpointColumns

def refreshInputs (env : SpecEnv) (namespaceId : ℕ) (name : String) (db : Db) : Except ApiError RefreshInputs := do
  let server ← getByName db namespaceId name
  let url ← refreshSource name server
  let existing := existingOf db server.id
  let imported ← currentEndpoints env url
  let incoming := imported.foldl (upsert ImportedEndpoint.operationId) []
  let columns ← (incoming.filter (writes existing)).mapM columnsOf
  .ok { server, existing, incoming, columns }

def RefreshInputs.merge (r : RefreshInputs) (t : Table ApiEndpoint) : Table ApiEndpoint :=
  (r.columns.foldl (mergeEndpoint r.server.id r.existing) t).deleteWhere
    (·.id ∈ (removedEndpoints r.existing r.incoming).map ApiEndpoint.id)

def refreshEndpoints (env : SpecEnv) (now : Time) (namespaceId : ℕ) (name : String) : DbSession RefreshReport := do
  let r ← fetch (refreshInputs env namespaceId name)
  write fun db =>
    { db with
      apiEndpoints := r.merge db.apiEndpoints
      apiServers := db.apiServers.update r.server.id fun s =>
        { s with endpointCount := refreshedCount r.existing r.incoming, lastRefreshedAt := some now } }
  pure (refreshReport r.existing r.incoming)

def performRefresh (env : SpecEnv) (now : Time) (namespaceId : ℕ) (name : String) : DbSession RefreshReport :=
  transaction (fun before _ => before) (refreshEndpoints env now namespaceId name)

def OperationsUnique (db : Db) : Prop :=
  ∀ e ∈ db.apiEndpoints.rows, ∀ f ∈ db.apiEndpoints.rows,
    e.apiServerId = f.apiServerId → e.operationId = f.operationId → e = f

def Selected (e : ApiEndpoint) : Prop := e.enabled = true ∨ e.published = true

instance (e : ApiEndpoint) : Decidable (Selected e) := inferInstanceAs (Decidable (_ ∨ _))

def OperationSelected (db : Db) (serverId : ℕ) (method : HttpMethod) (path : String) : Prop :=
  ∃ e ∈ db.apiEndpoints.rows, e.apiServerId = serverId ∧ e.method = method ∧ e.path = path ∧ Selected e

instance (db : Db) (serverId : ℕ) (method : HttpMethod) (path : String) :
    Decidable (OperationSelected db serverId method path) :=
  inferInstanceAs (Decidable (∃ e ∈ db.apiEndpoints.rows, _ ∧ _ ∧ _ ∧ _))

def SelectionKept (before after : Db) : Prop :=
  ∀ e ∈ after.apiEndpoints.rows, e.source = .imported → Selected e →
    OperationSelected before e.apiServerId e.method e.path

instance (before after : Db) : Decidable (SelectionKept before after) :=
  inferInstanceAs (Decidable (∀ e ∈ after.apiEndpoints.rows, _ → _ → _))

structure Refreshes (env : SpecEnv) (db : Db) (namespaceId : ℕ) (name : String) (server : NamespaceApiServer)
    (endpoints : List ImportedEndpoint) : Prop where
  registered : getByName db namespaceId name = .ok server
  document : ∃ url, refreshSource name server = .ok url ∧ currentEndpoints env url = .ok endpoints
  storable : ∀ imp ∈ endpoints, writes (existingOf db server.id) imp = true → ∃ c, columnsOf imp = .ok c

variable {env : SpecEnv} {namespaceId : ℕ} {r : RefreshInputs} {name : String} {db : Db}

theorem currentEndpoints_nodup {url : String} {eps : List ImportedEndpoint}
    (h : currentEndpoints env url = .ok eps) : (eps.map ImportedEndpoint.operationId).Nodup := by
  obtain ⟨text, -, h⟩ := bind_eq_ok.mp h
  split at h
  · rename_i result hr
    cases h
    obtain ⟨spec, -, hs⟩ := bind_eq_ok.mp hr
    exact extractEndpoints_nodup hs
  · cases h
  · cases h

theorem columnsOf_eq {imp : ImportedEndpoint} {c : EndpointColumns} (h : columnsOf imp = .ok c) :
    c.operationId = imp.operationId ∧ c.method = imp.method ∧ c.path = imp.path := by
  obtain ⟨_, -, h⟩ := bind_eq_ok.mp h
  obtain ⟨_, -, h⟩ := bind_eq_ok.mp h
  obtain ⟨_, -, h⟩ := bind_eq_ok.mp h
  cases h
  exact ⟨rfl, rfl, rfl⟩

theorem refreshInputs_eq_ok : refreshInputs env namespaceId name db = .ok r ↔
      Refreshes env db namespaceId name r.server r.incoming ∧ r.existing = existingOf db r.server.id ∧
        (r.incoming.filter (writes r.existing)).mapM columnsOf = .ok r.columns := by
  constructor
  · intro h
    obtain ⟨sr, hs, h⟩ := bind_eq_ok.mp h
    obtain ⟨url, hu, h⟩ := bind_eq_ok.mp h
    obtain ⟨impo, him, h⟩ := bind_eq_ok.mp h
    obtain ⟨columns, hco, h⟩ := bind_eq_ok.mp h
    cases h
    have hin := foldl_upsert_of_nodup (currentEndpoints_nodup him)
    rw [hin] at hco ⊢
    refine ⟨⟨hs, ⟨url, hu, him⟩, ?_⟩, rfl, hco⟩
    intro imp hip hw
    obtain ⟨c, -, hc⟩ := exists_of_mem_left (mapM_eq_ok.mp hco) (List.mem_filter.mpr ⟨hip, hw⟩)
    exact ⟨c, hc⟩
  · rintro ⟨h, he, hco⟩
    obtain ⟨url, hu, him⟩ := h.document
    have hin := foldl_upsert_of_nodup (currentEndpoints_nodup him)
    refine bind_eq_ok.mpr ⟨_, h.registered, bind_eq_ok.mpr ⟨url, hu, bind_eq_ok.mpr ⟨_, him, ?_⟩⟩⟩
    rw [hin, ← he]
    exact bind_eq_ok.mpr ⟨_, hco, rfl⟩

theorem Refreshes.inputs {server : NamespaceApiServer}
    {endpoints : List ImportedEndpoint} (h : Refreshes env db namespaceId name server endpoints) :
    ∃ columns, refreshInputs env namespaceId name db =
      .ok { server, existing := existingOf db server.id, incoming := endpoints, columns } := by
  have hs : ∀ imp ∈ endpoints.filter (writes (existingOf db server.id)), ∃ c, columnsOf imp = .ok c :=
    fun imp him => h.storable imp (List.mem_filter.mp him).1 (List.mem_filter.mp him).2
  obtain ⟨columns, hc⟩ := exists_mapM_eq_ok hs
  exact ⟨columns, refreshInputs_eq_ok.mpr ⟨h, rfl, hc⟩⟩

theorem performRefresh_of_error {now : Time} {e : ApiError}
    (h : refreshInputs env namespaceId name db = .error e) :
    performRefresh env now namespaceId name db = (.error e, db) := by
  have hc : refreshEndpoints env now namespaceId name db = (.error e, db) := fetch_bind_of_error h
  unfold performRefresh transaction
  rw [hc]

theorem performRefresh_endpoints {now : Time} (h : refreshInputs env namespaceId name db = .ok r) :
    (performRefresh env now namespaceId name db).2.apiEndpoints = r.merge db.apiEndpoints := by
  have hc : refreshEndpoints env now namespaceId name db = _ := fetch_bind_of_ok h
  unfold performRefresh transaction
  rw [hc]
  rfl

section Merge

variable {db : Db} {serverId : ℕ} {columns : List EndpointColumns} {e : ApiEndpoint}

def overlay (serverId : ℕ) (columns : List EndpointColumns) (e : ApiEndpoint) : ApiEndpoint :=
  if e.apiServerId = serverId then
    match columns.find? (·.operationId = e.operationId) with
    | some c => c.applyTo e
    | none => e
  else e

theorem overlay_of_not_mem (h : e.operationId ∉ columns.map EndpointColumns.operationId) :
    overlay serverId columns e = e := by
  have hn : columns.find? (·.operationId = e.operationId) = none := by
    rw [List.find?_eq_none]
    intro c hc hid
    exact h (List.mem_map.mpr ⟨c, hc, by simpa using hid⟩)
  unfold overlay
  rw [hn]
  split <;> rfl

theorem overlay_cases (serverId : ℕ) (columns : List EndpointColumns) (e : ApiEndpoint) :
    overlay serverId columns e = e ∨
      ∃ c ∈ columns, e.apiServerId = serverId ∧ c.operationId = e.operationId ∧
        overlay serverId columns e = c.applyTo e := by
  by_cases hs : e.apiServerId = serverId
  · cases hf : columns.find? (·.operationId = e.operationId) with
    | none => exact .inl (by simp [overlay, hf])
    | some c =>
      have hid : c.operationId = e.operationId := by simpa using List.find?_some hf
      exact .inr ⟨c, List.mem_of_find?_eq_some hf, hs, hid, by simp [overlay, hs, hf]⟩
  · exact .inl (by simp [overlay, hs])

theorem overlay_id : (overlay serverId columns e).id = e.id := by
  rcases overlay_cases serverId columns e with h | ⟨c, -, -, -, h⟩ <;> rw [h]
  rfl

theorem overlay_concat {c : EndpointColumns} (hn : c.operationId ∉ columns.map EndpointColumns.operationId) :
    overlay serverId (columns ++ [c]) e =
      if e.apiServerId = serverId ∧ e.operationId =
        c.operationId then c.applyTo e else overlay serverId columns e := by
  by_cases hs : e.apiServerId = serverId
  · by_cases hid : e.operationId = c.operationId
    · have hno : columns.find? (·.operationId = c.operationId) = none := by
        rw [List.find?_eq_none]
        intro d hd hdi
        exact hn (List.mem_map.mpr ⟨d, hd, by simpa using hdi⟩)
      simp [overlay, hs, hid, hno, List.find?_append]
    · have ho : ¬ c.operationId = e.operationId := fun h => hid h.symm
      simp [overlay, hs, hid, ho, List.find?_append]
  · simp [overlay, hs]

theorem mem_existingOf (h : e ∈ existingOf db serverId) : e ∈ db.apiEndpoints.rows ∧ e.apiServerId = serverId := by
  have hm := (mem_foldl_upsert h).resolve_left List.not_mem_nil
  simpa [endpointsOf, Table.mem_select] using hm

theorem existingAt_row {operationId : String} (h : existingAt (existingOf db serverId) operationId = some e) :
    e ∈ db.apiEndpoints.rows ∧ e.apiServerId = serverId ∧ e.operationId = operationId := by
  obtain ⟨hr, hs⟩ := mem_existingOf (List.mem_of_find?_eq_some h)
  exact ⟨hr, hs, by simpa using List.find?_some h⟩

theorem existingAt_of_row (hu : OperationsUnique db) (hr : e ∈ db.apiEndpoints.rows)
    (hs : e.apiServerId = serverId) : existingAt (existingOf db serverId) e.operationId = some e := by
  have hm : e ∈ endpointsOf db serverId := by
    rw [endpointsOf, List.mem_insertionSort, Table.mem_select]
    exact ⟨hr, by simpa using hs⟩
  obtain ⟨f, -, hid, hfo⟩ := find?_foldl_upsert ApiEndpoint.operationId hm
  have hf : existingAt (existingOf db serverId) e.operationId = some f := hfo
  obtain ⟨hfr, hfs, -⟩ := existingAt_row hf
  rw [hf, hu f hfr e hr (hfs.trans hs.symm) hid]

theorem selected_applyTo {c : EndpointColumns} : Selected (c.applyTo e) ↔ Selected e := Iff.rfl

theorem rows_mergeEndpoint (hun : OperationsUnique db) {c : EndpointColumns} {t : Table ApiEndpoint}
    {new : List ApiEndpoint} (hn : c.operationId ∉ columns.map EndpointColumns.operationId)
    (hr : t.rows = db.apiEndpoints.rows.map (overlay serverId columns) ++ new)
    (hu : ∀ e ∈ new, ¬ Selected e) :
    ∃ new', (mergeEndpoint serverId (existingOf db serverId) t c).rows =
        db.apiEndpoints.rows.map (overlay serverId (columns ++ [c])) ++ new' ∧ ∀ e ∈ new', ¬ Selected e := by
  unfold mergeEndpoint
  split
  · rename_i found hfo
    obtain ⟨hro, hse, hid⟩ := existingAt_row hfo
    have hol : ∀ e ∈ db.apiEndpoints.rows,
        (if (overlay serverId columns e).id = found.id then c.applyTo (overlay serverId columns e)
          else overlay serverId columns e) = overlay serverId (columns ++ [c]) e := by
      intro e he
      rw [overlay_concat hn, overlay_id]
      by_cases hsa : e.id = found.id
      · obtain rfl : e = found := Table.eq_of_id_eq he hro hsa
        rw [if_pos rfl, if_pos ⟨hse, hid⟩, overlay_of_not_mem (hid ▸ hn)]
      · have hot : ¬ (e.apiServerId = serverId ∧ e.operationId = c.operationId) := by
          rintro ⟨hs, ho⟩
          exact hsa (congrArg ApiEndpoint.id (hun e he found hro (hs.trans hse.symm) (ho.trans hid.symm)))
        rw [if_neg hsa, if_neg hot]
    refine ⟨new.map fun e => if e.id = found.id then c.applyTo e else e, ?_, ?_⟩
    · have hup : (t.update found.id c.applyTo).rows =
          t.rows.map fun e => if e.id = found.id then c.applyTo e else e := by
        simp only [Table.update, Table.updateWhere, decide_eq_true_eq]
        rfl
      rw [hup, hr, List.map_append, List.map_map]
      congr 1
      exact List.map_congr_left hol
    · intro e he
      obtain ⟨f, hf, rfl⟩ := List.mem_map.mp he
      split
      · rw [selected_applyTo]
        exact hu f hf
      · exact hu f hf
  · rename_i hm
    have hol : ∀ e ∈ db.apiEndpoints.rows, overlay serverId columns e = overlay serverId (columns ++ [c]) e := by
      intro e he
      rw [overlay_concat hn, if_neg]
      rintro ⟨hse, hid⟩
      rw [← hid, existingAt_of_row hun he hse] at hm
      cases hm
    refine ⟨new ++ [c.newRow serverId t.freshId], ?_, ?_⟩
    · change t.rows ++ [c.newRow serverId t.freshId] = _
      rw [hr, List.append_assoc, List.map_congr_left hol]
    · intro e he
      rcases List.mem_append.mp he with he | he
      · exact hu e he
      · rw [List.mem_singleton.mp he]
        simp [Selected, EndpointColumns.newRow]

theorem rows_merge (serverId : ℕ) (hu : OperationsUnique db) (hn : (columns.map EndpointColumns.operationId).Nodup) :
    ∃ new, (columns.foldl (mergeEndpoint serverId (existingOf db serverId)) db.apiEndpoints).rows =
        db.apiEndpoints.rows.map (overlay serverId columns) ++ new ∧ ∀ e ∈ new, ¬ Selected e := by
  induction columns using List.reverseRecOn with
  | nil =>
    have hs : db.apiEndpoints.rows.map (overlay serverId []) = db.apiEndpoints.rows :=
      (List.map_congr_left fun e _ => overlay_of_not_mem List.not_mem_nil).trans (List.map_id _)
    exact ⟨[], by rw [hs, List.append_nil, List.foldl_nil], by simp⟩
  | append_singleton columns c ih =>
    rw [List.map_append, List.nodup_append] at hn
    obtain ⟨new, hr, hun⟩ := ih hn.1
    rw [List.foldl_append, List.foldl_cons, List.foldl_nil]
    exact rows_mergeEndpoint hu (fun h => hn.2.2 _ h _ (by simp) rfl) hr hun

theorem columns_nodup {inc : List ImportedEndpoint} {columns : List EndpointColumns}
    (hn : (inc.map ImportedEndpoint.operationId).Nodup) (h : inc.mapM columnsOf = .ok columns) :
    (columns.map EndpointColumns.operationId).Nodup := by
  have hid : columns.map EndpointColumns.operationId = inc.map ImportedEndpoint.operationId := by
    have hp := mapM_eq_ok.mp h
    clear h hn
    induction hp with
    | nil => rfl
    | cons hc _ ih => rw [List.map_cons, List.map_cons, ih, (columnsOf_eq hc).1]
  rw [hid]
  exact hn

end Merge

def CarriesOver (db : Db) (server : NamespaceApiServer) (endpoints : List ImportedEndpoint) : Prop :=
  ∀ e ∈ db.apiEndpoints.rows, e.apiServerId = server.id → e.source = .imported → Selected e →
    ∀ imp ∈ endpoints, imp.operationId = e.operationId → OperationSelected db server.id imp.method imp.path

instance (db : Db) (server : NamespaceApiServer) (endpoints : List ImportedEndpoint) :
    Decidable (CarriesOver db server endpoints) :=
  inferInstanceAs (Decidable (∀ e ∈ db.apiEndpoints.rows, _ → _ → _ → ∀ imp ∈ endpoints, _ → _))

theorem selectionKept_self (db : Db) : SelectionKept db db :=
  fun e he _ hs => ⟨e, he, rfl, rfl, rfl, hs⟩

theorem mem_merge_of_imported (hu : OperationsUnique db)
    (hex : r.existing = existingOf db r.server.id)
    (hn : (r.columns.map EndpointColumns.operationId).Nodup) {e : ApiEndpoint} {c : EndpointColumns}
    (he : e ∈ db.apiEndpoints.rows) (hs : e.apiServerId = r.server.id) (hc : c ∈ r.columns)
    (hid : c.operationId = e.operationId) (hin : e.operationId ∈ r.incoming.map ImportedEndpoint.operationId) :
    c.applyTo e ∈ (r.merge db.apiEndpoints).rows := by
  obtain ⟨new, hr, -⟩ := rows_merge r.server.id hu hn
  have hfo : r.columns.find? (·.operationId = e.operationId) = some c := by
    rw [← hid]
    exact find?_of_nodup hn hc
  have ho : overlay r.server.id r.columns e = c.applyTo e := by simp [overlay, hs, hfo]
  refine List.mem_filter.mpr ⟨?_, ?_⟩
  · rw [hex, hr, ← ho]
    exact List.mem_append_left _ (List.mem_map_of_mem he)
  · -- a row that is removed has an id that the document does not use
    have hk : (c.applyTo e).id ∉ (removedEndpoints r.existing r.incoming).map ApiEndpoint.id := by
      intro hm
      obtain ⟨f, hf, hfi⟩ := List.mem_map.mp hm
      obtain ⟨hfm, hg⟩ := List.mem_filter.mp hf
      rw [hex] at hfm
      obtain rfl : f = e := Table.eq_of_id_eq (mem_existingOf hfm).1 he hfi
      rw [decide_eq_true_eq] at hg
      exact hg.2 hin
    simpa using hk

theorem selectionKept_merge {post : Db}
    (hu : OperationsUnique db) (hr : refreshInputs env namespaceId name db = .ok r)
    (ha : post.apiEndpoints = r.merge db.apiEndpoints) :
    SelectionKept db post ↔ CarriesOver db r.server r.incoming := by
  obtain ⟨hre, hex, hcl⟩ := refreshInputs_eq_ok.mp hr
  obtain ⟨url, -, hcu⟩ := hre.document
  have hn := columns_nodup
    ((currentEndpoints_nodup hcu).sublist (List.Sublist.map _ List.filter_sublist)) hcl
  have hpa := mapM_eq_ok.mp hcl
  unfold SelectionKept
  rw [ha]
  constructor
  · intro hk e he hse him hs imp hip hid
    have hw : writes r.existing imp = true := by
      rw [writes, hex, hid, existingAt_of_row hu he hse]
      simpa using him
    obtain ⟨c, hc, hco⟩ := exists_of_mem_left hpa (List.mem_filter.mpr ⟨hip, hw⟩)
    obtain ⟨hci, hme, hp⟩ := columnsOf_eq hco
    have hm := mem_merge_of_imported hu hex hn he hse hc (hci.trans hid)
      (List.mem_map.mpr ⟨imp, hip, hid⟩)
    have ho := hk (c.applyTo e) hm him (selected_applyTo.mpr hs)
    rw [← hse, ← hme, ← hp]
    exact ho
  · intro hca e' he' him hs
    obtain ⟨new, hro, hun⟩ := rows_merge r.server.id hu hn
    have hm := (List.mem_filter.mp he').1
    rw [hex, hro] at hm
    rcases List.mem_append.mp hm with hol | hne
    · obtain ⟨e, he, rfl⟩ := List.mem_map.mp hol
      rcases overlay_cases r.server.id r.columns e with hsa | ⟨c, hc, hse, hid, hov⟩
      · rw [hsa] at hs ⊢
        exact ⟨e, he, rfl, rfl, rfl, hs⟩
      · rw [hov] at him hs ⊢
        obtain ⟨imp, hip, hco⟩ := exists_of_mem_right hpa hc
        obtain ⟨hci, hme, hp⟩ := columnsOf_eq hco
        have ho := hca e he hse him (selected_applyTo.mp hs) imp
          (List.mem_filter.mp hip).1 (hci.symm.trans hid)
        rw [← hme, ← hp, ← hse] at ho
        exact ho
    · exact absurd hs (hun e' hne)

/-- Refreshing selects no new operation exactly when no id of a selected endpoint passes to an operation that was not
selected. -/
theorem refresh_keeps_selection_iff (env : SpecEnv) (now : Time) (namespaceId : ℕ) (name : String) (db : Db)
    (hunique : OperationsUnique db) :
    SelectionKept db (performRefresh env now namespaceId name db).2 ↔
      ∀ server endpoints, Refreshes env db namespaceId name server endpoints → CarriesOver db server endpoints := by
  cases hr : refreshInputs env namespaceId name db with
  | error e =>
    rw [performRefresh_of_error hr]
    refine ⟨fun _ server endpoints h => ?_, fun _ => selectionKept_self db⟩
    obtain ⟨columns, hc⟩ := h.inputs
    cases hr.symm.trans hc
  | ok r =>
    rw [selectionKept_merge hunique hr (performRefresh_endpoints hr)]
    constructor
    · intro h server endpoints hre
      obtain ⟨columns, hc⟩ := hre.inputs
      cases hr.symm.trans hc
      exact h
    · intro h
      exact h r.server r.incoming (refreshInputs_eq_ok.mp hr).1

def listingSpec (paths : List String) : Json :=
  .obj [("openapi", .str "3.0.0"),
    ("paths", .obj (paths.map fun path => (path, .obj [("get", .obj [("operationId", .str "list")])])))]

def listingEnv (paths : List String) : SpecEnv where
  loads _ := .ok (listingSpec paths)
  safeLoad _ := .error (.invalid "")
  fetchSpecText _ := .ok "document"

def listingServer : NamespaceApiServer :=
  { id := 1, namespaceId := 1, name := "shop", specSource := .openapiUrl, openapiUrl := some "openapi.json" }

def listingDb : Db :=
  { apiServers := .single listingServer
    apiEndpoints :=
      { rows := [{ id := 1, apiServerId := 1, operationId := "list", path := "/items", enabled := true },
                 { id := 2, apiServerId := 1, operationId := "list_2", path := "/users" }]
        nodup := by decide } }

theorem listingDb_unique : OperationsUnique listingDb := by
  intro e he f hf _ hid
  simp only [listingDb, List.mem_cons, List.not_mem_nil, or_false] at he hf
  rcases he with rfl | rfl <;> rcases hf with rfl | rfl
  · rfl
  · exact absurd hid (by decide)
  · exact absurd hid (by decide)
  · rfl

/-- With the operations in the other order the id of the enabled one passes to `GET /users`. -/
theorem users_enabled_by_order :
    ¬ SelectionKept listingDb (performRefresh (listingEnv ["/users", "/items"]) 0 1 "shop" listingDb).2 := by
  decide +kernel

theorem items_stay_enabled :
    SelectionKept listingDb (performRefresh (listingEnv ["/items", "/orders", "/users"]) 0 1 "shop" listingDb).2 := by
  refine (refresh_keeps_selection_iff _ 0 1 "shop" listingDb listingDb_unique).mpr fun sr eps h => ?_
  obtain ⟨url, hu, he⟩ := h.document
  have hs : getByName listingDb 1 "shop" = .ok listingServer := rfl
  obtain rfl := Except.ok.inj (hs.symm.trans h.registered)
  obtain rfl : "openapi.json" = url := Except.ok.inj hu
  have hc : CarriesOver listingDb listingServer
      ((currentEndpoints (listingEnv ["/items", "/orders", "/users"]) "openapi.json").toOption.getD []) := by
    decide +kernel
  rw [he] at hc
  exact hc

end McpworksApi.OpenApi
