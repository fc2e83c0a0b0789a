import TypedEntities.Template.Syntax

/-!
# Templates of enumerations

The enumeration of a list is a file of its own; the enumerations of all phases stand in one class.
Both kinds have the same members, at different indentations.
-/

namespace TypedEntities.Template

open Node

/-- The sentence that every generated file carries. -/
def generatedNotice : List Node :=
  lines [" * Generated from workspace metadata, do not edit.", " */"]

/-- What the enumerations import. -/
def enumerationImports : List Node :=
  lines ["",
    "import com.hpe.adm.nga.sdk.model.EntityModel;",
    "import com.hpe.adm.nga.sdk.model.FieldModel;",
    "import com.hpe.adm.nga.sdk.model.StringFieldModel;",
    "",
    "/**"]

/-- The line of a constant with its id and its name. -/
def constantLine (indent : String) : List Node :=
  line [indent, key "identifier", "(\"", quoted (.key "id"), "\", \"", quoted (.key "name"), "\")",
    separator ","]

/-- The members of an enumeration whose name is the value of a key and whose constants are entities
of a type. -/
def enumerationMembers (indent name entityType : String) : List Node :=
  indented indent ["private final String id;", "private final String name;", ""]
  ++ line [indent, key name, "(final String id, final String name) \x7b"]
  ++ indented indent [
    "    this.id = id;",
    "    this.name = name;",
    "\x7d",
    "",
    "public String getId() \x7b",
    "    return id;",
    "\x7d",
    "",
    "public String getName() \x7b",
    "    return name;",
    "\x7d",
    "",
    "public EntityModel getAsEntityModel() \x7b",
    "    final EntityModel entityModel = new EntityModel();",
    "    entityModel.setValue(new StringFieldModel(\"id\", id));",
    "    entityModel.setValue(new StringFieldModel(\"type\", \"" ++ entityType ++ "\"));",
    "    return entityModel;",
    "\x7d",
    ""]
  ++ line [indent, "public static ", key name,
    " fromEntityModel(final EntityModel entityModel) \x7b"]
  ++ indented indent [
    "    if (entityModel == null) \x7b",
    "        return null;",
    "    \x7d",
    "    final FieldModel idField = entityModel.getValue(\"id\");",
    "    if (idField == null) \x7b",
    "        return null;",
    "    \x7d",
    "    final String entityId = String.valueOf(idField.getValue());"]
  ++ line [indent, "    for (final ", key name, " value : values()) \x7b"]
  ++ indented indent [
    "        if (value.id.equals(entityId)) \x7b",
    "            return value;",
    "        \x7d",
    "    \x7d",
    "    return null;",
    "\x7d"]

/-- The logical name of a list as a literal, or `null` for none. -/
def logicalName : Node :=
  .block .ifHolds (.key "logical_name") ["\"", quoted (.key "logical_name"), "\""] (some ["null"])

/-- The enumeration of a list. -/
def list : List Node :=
  line ["package ", key "package", ".enums.lists;"]
  ++ enumerationImports
  ++ line [" * Values of the ", key "identifier", " list."]
  ++ generatedNotice
  ++ line ["public enum ", key "identifier", " \x7b"]
  ++ each "items" (onlyIf "deprecated" (lines ["    @Deprecated"]) ++ constantLine "    ")
  ++ lines ["    ;", ""]
  ++ line ["    public static final String LOGICAL_NAME = ", logicalName, ";"]
  ++ lines [""]
  ++ enumerationMembers "    " "identifier" "list_node"
  ++ lines ["\x7d"]

/-- The enumeration of the phases of an entity type. -/
def phaseGroup : List Node :=
  lines ["", "    /**"]
  ++ line ["     * Phases of ", key "entity", "."]
  ++ lines ["     */"]
  ++ line ["    public enum ", key "enum_name", " \x7b"]
  ++ each "phases" (constantLine "        ")
  ++ lines ["        ;", ""]
  ++ enumerationMembers "        " "enum_name" "phase"
  ++ lines ["    \x7d"]

/-- The class of all phases. -/
def phases : List Node :=
  line ["package ", key "package", ".enums;"]
  ++ enumerationImports
  ++ lines [" * Workflow phases per entity type."]
  ++ generatedNotice
  ++ lines ["public final class Phases \x7b", "", "    private Phases() \x7b", "    \x7d"]
  ++ each "groups" phaseGroup
  ++ lines ["\x7d"]

end TypedEntities.Template
