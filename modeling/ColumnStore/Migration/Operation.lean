-- The changes that a migration is made of.
import ColumnStore.Table.Entity
import ColumnStore.Text.Quoted

namespace ColumnStore

/-- A change of one table. -/
inductive TableChange where
  /-- Creates the entity of the table, with other columns than its own where some are given. -/
  | create (columns : List Column)
  | drop
  | rename (name : String) (schema : Option String)
  | addColumn (column : Column) (annotations : SortedMap String)
  | dropColumn (name : String)
  | alterColumn (column : Column) (annotations : SortedMap String)
  | renameColumn (name newName : String)
  | addPrimaryKey (name : String) (columns : List String)
  | dropPrimaryKey (name : String)
  | addForeignKey (name : String) (columns : List String) (principal : String)
      (principalColumns : List String)
  | dropForeignKey (name : String)
  /-- An index of its own kind, of the entity's, or of the default one. -/
  | createIndex (name : String) (columns : List String) (unique : Bool) (skip : Option SkipIndex)
  | dropIndex (name : String)
  | addProjection (name query : String) (ifNotExists : Bool)
  | dropProjection (name : String) (ifExists : Bool)
  | materializeProjection (name : String) (part : Option String) (ifExists : Bool)
  | insertData (columns : List String) (rows : List (List Value))
  | updateData
  | deleteData

inductive Operation where
  | ensureSchema (name : String)
  | dropSchema (name : String)
  | onTable (object : ObjectName) (change : TableChange)
  /-- SQL that is passed through. -/
  | sql (text : String)

namespace Operation

/-- The table that the operation is on, if it is on one. -/
def table? : Operation → Option String
  | onTable object _ => some object.name
  | _ => none

/-- The table that the operation creates. -/
def creates? : Operation → Option String
  | onTable object (.create _) => some object.name
  | _ => none

/-- The tables that have to exist first: a view's source and target, a dictionary's source in
the store, and for any other change but a drop the table itself. -/
def needs (o : Operation) (m : Model) : List String :=
  match o with
  | onTable object (.create _) =>
    match (m.entity? object.name).map Entity.kind with
    | some (.view v) => v.sourceTable :: v.targetTable.toList
    | some (.dictionary d) =>
      match d.source with
      | .store table _ => [table]
      | _ => []
    | _ => []
  | onTable _ .drop => []
  | onTable object _ => [object.name]
  | _ => []

end Operation

end ColumnStore
