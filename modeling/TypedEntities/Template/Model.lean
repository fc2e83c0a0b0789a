import TypedEntities.Template.Enumerations

/-!
# Templates of a model

The interface of an entity type, and its model: a class with a constructor for every way to give the
required fields, and a getter and setters for every field.
-/

namespace TypedEntities.Template

open Node

/-- The interface of an entity type. -/
def entity : List Node :=
  line ["package ", key "package", ".model;"]
  ++ lines ["", "import com.hpe.adm.nga.sdk.model.Entity;", "", "/**"]
  ++ line [" * Marker interface of the ", key "entity_name", " entity type."]
  ++ generatedNotice
  ++ line ["public interface ", key "interface_name", " extends ", key "super_interface", " \x7b"]
  ++ lines ["\x7d"]

/-- A constructor that sets the required fields. -/
def constructorPart : List Node :=
  lines [""]
  ++ line ([text "    public ", outer 1 "class_name", "("]
    ++ each "parameters" ["final ", key "java_type", " ", key "member", separator ", "]
    ++ [text ") \x7b"])
  ++ lines ["        this();"]
  ++ each "parameters" (line ["        set", key "accessor", "(", key "member", ");"])
  ++ lines ["    \x7d"]

/-- The line of a getter that looks for the model of a field of a class. -/
def lookUpLine (fieldClass : String) : List Node :=
  line ["        final " ++ fieldClass ++ " field = (" ++ fieldClass
    ++ ") wrappedEntityModel.getValue(\"", quoted (.key "name"), "\");"]

/-- The body of a getter for one kind of type. -/
def getterBody (kind : String) (body : List Node) : List Node :=
  onlyIfEqual (.path 0 ["getter", "kind"]) kind body

/-- The bodies of a getter. -/
def getterBodies : List Node :=
  getterBody "scalar"
    (line ["        final ", subkey "getter" "field_model", " field = (",
        subkey "getter" "field_model", ") wrappedEntityModel.getValue(\"", quoted (.key "name"),
        "\");"]
      ++ lines ["        return field == null ? null : field.getValue();"])
  ++ getterBody "model"
    (lookUpLine "ReferenceFieldModel"
      ++ line ["        return field == null || field.getValue() == null ? null : new ",
        subkey "getter" "java_type", "(field.getValue());"])
  ++ getterBody "generic"
    (lookUpLine "ReferenceFieldModel"
      ++ lines ["        return field == null ? null : field.getValue();"])
  ++ getterBody "list"
    (lookUpLine "ReferenceFieldModel"
      ++ line ["        return field == null ? null : ", subkey "getter" "java_type",
        ".fromEntityModel(field.getValue());"])
  ++ getterBody "phase"
    (lookUpLine "ReferenceFieldModel"
      ++ line ["        return field == null ? null : ", subkey "getter" "java_type",
        ".fromEntityModel(field.getValue());"])
  ++ getterBody "list_collection"
    (lookUpLine "MultiReferenceFieldModel"
      ++ line ["        return field == null || field.getValue() == null ? null : "
          ++ "field.getValue().stream().map(", subkey "getter" "element_type",
        "::fromEntityModel).collect(Collectors.toList());"])
  ++ getterBody "collection"
    (lookUpLine "MultiReferenceFieldModel"
      ++ lines ["        return field == null ? null : field.getValue();"])

/-- The body of a setter for one kind of type. -/
def setterBody (kind : String) (before after : List Node) : List Node :=
  onlyIfEqual (.key "kind") kind
    (line ([text "        wrappedEntityModel.setValue(new "] ++ before
      ++ [text "(\"", quoted (.outerKey 1 "name"), "\", "] ++ after ++ [text ");"]))

/-- The bodies of a setter. -/
def setterBodies : List Node :=
  setterBody "scalar" [key "field_model"] ["value)"]
  ++ setterBody "model" ["ReferenceFieldModel"]
    ["value == null ? null : value.getWrappedEntityModel())"]
  ++ setterBody "generic" ["ReferenceFieldModel"] ["value)"]
  ++ setterBody "list" ["ReferenceFieldModel"]
    ["value == null ? null : value.getAsEntityModel())"]
  ++ setterBody "phase" ["ReferenceFieldModel"]
    ["value == null ? null : value.getAsEntityModel())"]
  ++ setterBody "list_collection" ["MultiReferenceFieldModel"]
    ["value == null ? null : value.stream().map(", key "element_type",
      "::getAsEntityModel).collect(Collectors.toList()))"]
  ++ setterBody "collection" ["MultiReferenceFieldModel"]
    ["value == null ? null : value.stream().map(Entity::getWrappedEntityModel)"
      ++ ".collect(Collectors.toList()))"]

/-- A setter of a field. -/
def setterPart : List Node :=
  lines [""]
  ++ line ["    public ", outer 2 "class_name", " set", outer 1 "accessor", "(final ",
    key "java_type", " value) \x7b"]
  ++ setterBodies
  ++ lines ["        return this;", "    \x7d"]

/-- The getter and the setters of a field. -/
def fieldPart : List Node :=
  lines ["", "    /**"]
  ++ line ["     * ", key "label"]
  ++ lines ["     */"]
  ++ line ["    public ", subkey "getter" "java_type", " get", key "accessor", "() \x7b"]
  ++ getterBodies
  ++ lines ["    \x7d"]
  ++ each "setters" setterPart

/-- The model of an entity type. -/
def entityModel : List Node :=
  line ["package ", key "package", ".model;"]
  ++ lines ["",
    "import com.hpe.adm.nga.sdk.model.*;",
    "",
    "import java.util.stream.Collectors;",
    "",
    "/**"]
  ++ line [" * Typed model of the ", key "entity_name", " entity type."]
  ++ generatedNotice
  ++ line ["public class ", key "class_name", " extends TypedEntityModel implements ",
    key "interface_name", " \x7b"]
  ++ lines [""]
  ++ line ["    public ", key "class_name", "() \x7b"]
  ++ lines ["        super();"]
  ++ line ["        wrappedEntityModel.setValue(new StringFieldModel(\"type\", \"",
    quoted (.key "entity_name"), "\"));"]
  ++ lines ["    \x7d", ""]
  ++ line ["    public ", key "class_name", "(final EntityModel entityModel) \x7b"]
  ++ lines ["        super(entityModel);", "    \x7d"]
  ++ each "constructors" constructorPart
  ++ each "fields" fieldPart
  ++ lines ["\x7d"]

end TypedEntities.Template
