import DocTemplate.Document.Snapshot

/-!
# Records of documents

The JSON form in which nodes, bodies, linear texts and snapshots are reported: the kind of each
node, its range, and what it holds.
-/

namespace DocTemplate

/-- The record of a node of some kind, with its range and further fields. -/
def nodeRecord (kind : String) (start stop : Json) (fields : List (String × Json)) : Json :=
  .obj ([("node", .str kind), ("start", start), ("end", stop)] ++ fields)

/-- The record of an element of a paragraph. -/
def ParagraphElement.toJson : ParagraphElement → Json
  | .run r => nodeRecord "TextRun" r.start.toJson r.stop
      [("content", .ofText r.content), ("text_style", r.style)]
  | .inline e => nodeRecord "InlineElement" e.start e.stop [("kind", .str e.kind.name)]

/-- The record of a paragraph. -/
def Paragraph.toJson (p : Paragraph) : Json :=
  nodeRecord "Paragraph" p.start p.stop [("style", p.namedStyle), ("text", .ofText p.text),
    ("elements", .arr (p.elements.map ParagraphElement.toJson))]

mutual

/-- The record of a block. -/
def Block.toJson : Block → Json
  | .paragraph p => p.toJson
  | .table t => t.toJson
  | .sectionBreak start stop => nodeRecord "SectionBreak" start stop []
  | .contents start stop content =>
    nodeRecord "TableOfContents" start stop [("content", .arr (blockRecords content))]

/-- The record of a table. -/
def Table.toJson : Table → Json
  | ⟨start, stop, rows⟩ =>
    nodeRecord "Table" start stop [("row_count", .int (Table.mk start stop rows).rowCount),
      ("column_count", .int (Table.mk start stop rows).columnCount),
      ("rows", .arr (rowRecords rows))]

/-- The records of blocks. -/
def blockRecords : List Block → List Json
  | [] => []
  | block :: rest => block.toJson :: blockRecords rest

/-- The records of rows. -/
def rowRecords : List Row → List Json
  | [] => []
  | ⟨start, stop, cells⟩ :: rest =>
    .obj [("start", start), ("end", stop), ("cells", .arr (cellRecords cells))] :: rowRecords rest

/-- The records of cells. -/
def cellRecords : List Cell → List Json
  | [] => []
  | ⟨start, stop, content, rowSpan, columnSpan⟩ :: rest =>
    .obj [("start", start), ("end", stop), ("row_span", rowSpan), ("column_span", columnSpan),
      ("text", .ofText (Cell.mk start stop content rowSpan columnSpan).text),
      ("content", .arr (blockRecords content))] :: cellRecords rest

end

/-- The record of a body. -/
def Body.toJson (b : Body) : Json :=
  .obj [("end_index", b.stop), ("table_starts", .arr (b.tables.map (·.start))),
    ("content", .arr (blockRecords b.content))]

/-- The record of the origin of a character. -/
def Origin.toJson (o : Origin) : Json :=
  .arr [.int o.index, o.runStart.toJson,
    match o.cell with
    | some c => .arr [c.table, .int c.row, .int c.column]
    | none => .null]

/-- The record of a linear text. -/
def LinearText.toJson (t : LinearText) : Json :=
  .obj [("text", .ofText t.text), ("length", .int t.text.length),
    ("has_origins", .bool t.hasOrigins), ("revision_id", t.revision),
    ("origins", .arr (t.origins.map Origin.toJson)), ("text_only", .ofText t.text)]

/-- The record of a snapshot. -/
def Snapshot.toJson (s : Snapshot) : Json :=
  .obj [("document_id", s.documentId), ("revision_id", s.revision), ("title", s.title),
    ("text", .ofText s.linear.text), ("linear_revision", s.linear.revision),
    ("end_index", s.body.stop)]

end DocTemplate
